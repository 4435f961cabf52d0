import Switchboard.Proofs.Pattern.Embedding
import Switchboard.Proofs.Pattern.Nesting

/-!
# Splicing a Pattern

Where `Embedding` asks what a fragment matches, and has conditions for that, here the pattern may be
any whose comments are tame, with look-arounds and references. Its fragment, put into a group, is read
as nested tokens, whatever stands around it. All that can go wrong from there is that the references of
the pattern, which are among these tokens, mean something else or nothing.

The fragment is in the modes of the pattern, which it sets for its group. A pattern may set its modes
behind a comment, and only from there on would text be verbose; but then it is read the same when it is
verbose from the start (`read_modes`).

## Main results

* `read_modes`: a pattern is read the same in the modes that it has.
* `Spliceable.exists_reads`: the group of a fragment is read as nested tokens.
-/

namespace Switchboard.Pattern

/-! ### The modes of a pattern -/

/-- A comment, and modes for the whole pattern, are read the same where text is verbose. -/
theorem Token.read_of_verbose {v w : Bool} (hvw : v = true → w = true) {c : Char} {cs : List Char}
    (h : (read v c cs).1 = .comment ∨ (read v c cs).1 = .skipped ∨
      ∃ change, (read v c cs).1 = .modes change) : read w c cs = read v c cs := by
  cases v with
  | true => rw [hvw rfl]
  | false =>
      rcases read_cases false c cs with ⟨rfl, hopening⟩ | ⟨-, hcaret⟩ | hsingle
      · cases w <;> rfl
      · rw [hcaret] at h
        rcases h with h | h | ⟨change, h⟩ <;> cases h
      · rcases h with h | h | ⟨change, h⟩
        · rw [h] at hsingle
          cases hsingle
        · exact absurd h (read_ne_skipped c cs)
        · rw [h] at hsingle
          cases hsingle

/-- The first token of a text in which no group is open. -/
theorem scanFrom_of_read {verbose : Bool} {c : Char} {cs rest : List Char} {token : Token}
    (h : Token.read verbose c cs = (token, rest)) (fuel place : Nat) :
    scanFrom (fuel + 1) [verbose] place (c :: cs) = ⟨place, token⟩ ::
      scanFrom fuel (token.nesting [verbose]) (place + (cs.length + 1 - rest.length)) rest := by
  rw [scanFrom, List.headD_cons, h]

/-- In the modes that the pattern will have at the end, text is cut into the same tokens, and the run
over them ends in the same state. -/
theorem run_withModes {a done : Assembly} (houter : a.outer = []) {fuel place : Nat} {cs : List Char}
    (hrun : a.run (scanFrom fuel [a.level.modes.verbose] place cs) = .ok done) :
    (a.withModes done.root.modes).run (scanFrom fuel [done.root.modes.verbose] place cs) = .ok done := by
  -- once the modes are those at the end there is nothing to show
  have hsettled : ∀ {a : Assembly} {fuel place cs}, done.root.modes = a.level.modes →
      a.run (scanFrom fuel [a.level.modes.verbose] place cs) = .ok done →
      (a.withModes done.root.modes).run (scanFrom fuel [done.root.modes.verbose] place cs) =
        .ok done := by
    intro a fuel place cs hmodes hrun
    rw [hmodes]
    exact hrun
  have hroot := congrArg Level.modes (Assembly.root_of_outer_eq_nil houter)
  induction fuel generalizing a place cs with
  | zero =>
      obtain rfl := Except.ok.inj hrun
      exact hsettled hroot rfl
  | succ fuel ih =>
      cases cs with
      | nil =>
          obtain rfl := Except.ok.inj hrun
          exact hsettled hroot rfl
      | cons c cs =>
          rcases hread : Token.read a.level.modes.verbose c cs with ⟨token, rest⟩
          obtain ⟨on, hon⟩ := Assembly.exists_union_of_run hrun
          rw [hroot] at hon
          have hsame := @Token.read_of_verbose a.level.modes.verbose done.root.modes.verbose
            (fun h => by simp [hon, Modes.union, h]) c cs
          rw [hread] at hsame
          have hfirst := hrun
          rw [scanFrom_of_read hread] at hfirst
          obtain ⟨next, hstep, hrest⟩ := Assembly.run_cons_eq_ok_iff.mp hfirst
          rcases (Assembly.moves_of_step hstep).modes_root with ⟨rfl, htoken⟩ |
            ⟨hnot, change, htoken, rfl⟩ | ⟨htouched, hmodes⟩
          · have hkeeps : ∀ verbose, token.nesting verbose = verbose := by
              rcases htoken with rfl | rfl <;> exact fun _ => rfl
            rw [hkeeps] at hrest
            rw [scanFrom_of_read (hsame (htoken.elim .inl (.inr ∘ .inl))), hkeeps]
            refine Assembly.run_cons_eq_ok_iff.mpr ⟨_, ?_, ih houter hrest hroot⟩
            rcases htoken with rfl | rfl <;> rfl
          · obtain rfl : token = .modes change := htoken
            have hroot' := congrArg Level.modes (@Assembly.root_of_outer_eq_nil
              (a.withModes (a.level.modes.union change.on)) houter)
            obtain ⟨on', hon'⟩ := Assembly.exists_union_of_run hrest
            have hunion : done.root.modes.union change.on = done.root.modes := by
              rw [hon', hroot']
              simp [Assembly.withModes, Modes.union, Bool.or_right_comm]
            have hnesting : (Token.modes change).nesting [done.root.modes.verbose] =
                [(done.root.modes.union change.on).verbose] := rfl
            have hnext := @ih (a.withModes (a.level.modes.union change.on)) houter _ _ hrest hroot'
            rw [scanFrom_of_read (hsame (.inr (.inr ⟨change, rfl⟩))), hnesting, hunion]
            refine Assembly.run_cons_eq_ok_iff.mpr ⟨_,
              @Assembly.step_modes (a.withModes done.root.modes) hnot _ _, ?_⟩
            change ((a.withModes (done.root.modes.union change.on)).run _) = _
            rwa [hunion]
          · exact hsettled ((htouched.modes_root_of_run hrest).trans (hmodes.trans hroot)) hrun

/-- **A pattern is read the same** in the modes that it has. -/
theorem read_modes {source : String} {modes : Modes} {p : Pattern}
    (h : read source modes = .ok p) : read source p.modes = .ok p := by
  obtain ⟨done, hrun, houter, huneven, rfl⟩ := read_eq_ok_iff.mp h
  have hroot := Assembly.root_of_outer_eq_nil houter
  refine read_eq_ok_iff.mpr ⟨done, ?_, houter, huneven, rfl⟩
  have hagain := @run_withModes (Assembly.start modes) _ rfl _ _ _ hrun
  rwa [hroot] at hagain

/-- A pattern that is read in the modes that it has is as verbose from the start as it will be. -/
theorem verbose_eq_of_run {a b done : Assembly} {front rest : List Spot}
    (hfront : a.run front = .ok b) (hrest : b.run rest = .ok done)
    (hmodes : done.root.modes = a.root.modes) : b.root.modes.verbose = a.root.modes.verbose := by
  obtain ⟨on, hon⟩ := Assembly.exists_union_of_run hfront
  obtain ⟨on', hon'⟩ := Assembly.exists_union_of_run hrest
  have hverbose := congrArg Modes.verbose (hmodes.symm.trans hon')
  rw [hon, Modes.union, Modes.union] at hverbose
  rw [hon, Modes.union]
  cases h : a.root.modes.verbose with
  | true => rfl
  | false =>
      rw [h] at hverbose
      simp only [Bool.false_or] at hverbose ⊢
      cases hv : on.verbose with
      | true => simp [hv] at hverbose
      | false => rfl

/-! ### Patterns that can be put into others -/

/-- A pattern keeps the text that it has been read from. -/
theorem source_of_read {source : String} {modes : Modes} {p : Pattern} (h : read source modes = .ok p) :
    p.source = source := by
  obtain ⟨done, -, -, -, rfl⟩ := read_eq_ok_iff.mp h
  rfl

/-- The tokens of a pattern. -/
def tokens (p : Pattern) : List Token := (scan p.modes.verbose p.source.toList).map (·.token)

/-- A pattern that can be put into another one: it has been read, and its comments are tame. -/
structure Spliceable (p : Pattern) : Prop where
  exists_read : ∃ modes, read p.source modes = .ok p
  tame : ∀ spot ∈ scan p.modes.verbose p.source.toList, spot.token = .skipped ∨ spot.token = .comment →
    Token.IsTame (p.source.toList.drop spot.place)

namespace Nested

variable {bars : Bool} {m n : Nat} {tokens : List Token}

/-- Plain tokens are nested as the tokens are. -/
theorem plain (h : Nested bars n tokens m) : Nested bars n (tokens.map Token.plain) m := by
  induction h with
  | nil => exact .nil
  | @cons n m token tokens hclose hbar _ ih =>
      have hdepth : token.plain.depth n = token.depth n := by cases token <;> rfl
      refine .cons (fun heq => hclose ?_) (fun heq => hbar ?_) (hdepth ▸ ih)
      · cases token <;> first | exact heq | cases heq
      · cases token <;> first | exact heq | cases heq

/-- The tokens of a fragment are nested if those of its body are. -/
theorem fragmentTokens (h : Nested bars 0 tokens 0) (modes : Modes) :
    Nested true 0 (fragmentTokens modes tokens) 0 := by
  rw [Pattern.fragmentTokens]
  split
  · exact h.mono
  · exact (@enclosed _ (.openPlain { on := modes }) _ h rfl (by simp) (by simp)).mono

end Nested

/-- A fragment opens no group that captures. -/
theorem isCapture_of_mem_fragmentTokens {modes : Modes} {body : List Token} {token : Token}
    (h : token ∈ fragmentTokens modes (body.map Token.plain)) : token.isCapture = false := by
  have hplain : token ∈ body.map Token.plain → token.isCapture = false := by
    intro hmem
    obtain ⟨token, -, rfl⟩ := List.mem_map.mp hmem
    cases token <;> rfl
  rw [fragmentTokens] at h
  split at h
  · exact hplain h
  · simp only [List.cons_append, List.mem_cons, List.mem_append, List.not_mem_nil, or_false] at h
    rcases h with rfl | h | rfl
    · rfl
    · exact hplain h
    · rfl

theorem Token.isModes_of_isReference {token : Token} (h : token.isReference = true) :
    token.isModes = false := by
  cases token <;> first | rfl | cases h

/-- The references of a pattern are in its fragment. -/
theorem mem_fragmentTokens {modes : Modes} {tokens body : List Token}
    (hbody : bodyTokens tokens = body ∨ bodyTokens tokens = body ++ [.dollar]) {token : Token}
    (htoken : token ∈ tokens) (hreference : token.isReference = true) :
    token ∈ fragmentTokens modes (body.map Token.plain) := by
  have hmem : token ∈ bodyTokens tokens := by
    obtain ⟨caret, heq, hcaret⟩ := exists_eq_append_bodyTokens tokens
    rw [heq, List.mem_append, List.mem_append] at htoken
    rcases htoken with hfront | htoken | hbody
    · have hmodes : token.isModes = true := List.mem_takeWhile_imp hfront
      rw [Token.isModes_of_isReference hreference] at hmodes
      cases hmodes
    · rcases hcaret with rfl | rfl
      · cases htoken
      · obtain rfl := List.mem_singleton.mp htoken
        cases hreference
    · exact hbody
  have hplain : token ∈ body.map Token.plain := by
    refine List.mem_map.mpr ⟨token, ?_, by cases token <;> first | rfl | cases hreference⟩
    rcases hbody with hbody | hbody
    · exact hbody ▸ hmem
    · rw [hbody] at hmem
      refine (List.mem_append.mp hmem).resolve_right fun hlast => ?_
      obtain rfl := List.mem_singleton.mp hlast
      cases hreference
  rw [fragmentTokens]
  split
  · exact hplain
  · simp [hplain]

/-- **The group of a fragment** is read as nested tokens. None of them captures, and the references of
the pattern are among them. -/
theorem Spliceable.exists_reads {p : Pattern} (h : p.Spliceable) :
    ∃ text inner, p.fragment = some text ∧
      Reads ('(' :: text ++ [')']) (.openCapture none :: inner ++ [.close]) ∧ Nested true 0 inner 0 ∧
      (∀ token ∈ inner, token.isCapture = false) ∧
      ∀ token ∈ p.tokens, token.isReference = true → token ∈ inner := by
  obtain ⟨modes, hread⟩ := h.exists_read
  obtain ⟨done, hrun, houter, -, hp⟩ := read_eq_ok_iff.mp (read_modes hread)
  have hroot : done.root.modes = p.modes := by
    rw [Assembly.root_of_outer_eq_nil houter, hp]
  have htokens : (scan p.modes.verbose p.source.toList).map (·.token) = p.tokens := rfl
  obtain ⟨plain, hrow⟩ : ∃ plain, Rows [p.modes.verbose] p.source.toList plain p.tokens [] :=
    exists_rows p.source.toList 0 rfl le_rfl rfl hrun h.tame
  have hcaptures := hrow.withoutCaptures_eq
  obtain ⟨text, body, next, hrow, hnext, hbody⟩ := hrow.exists_body fun token htoken => by
    obtain ⟨spot, hspot, rfl⟩ := List.mem_map.mp htoken
    exact Assembly.hasChunk_of_run hrun spot hspot
  obtain ⟨a, front, rest, hfront, ha, hrun', hrest, hstack⟩ := exists_run_front hrun htokens
  have hverbose : a.level.modes.verbose = p.modes.verbose := by
    rw [← Assembly.root_of_outer_eq_nil ha.outer_eq]
    exact verbose_eq_of_run hfront hrun' hroot
  rw [hstack, hverbose] at hrow
  obtain ⟨spots, a', hspots, hrun', houter', -, -⟩ := exists_run_body hrun' houter (hrest ▸ hbody)
  have hnested := Assembly.nested_of_run hrun'
  have hlength := Assembly.length_foldl_nesting hrun' [p.modes.verbose] (by rw [ha.outer_eq]; rfl)
  rw [houter', hspots] at hlength
  rw [ha.outer_eq, houter', hspots] at hnested
  refine ⟨fragmentText p.modes (withoutAnchors (withoutModes plain)), _, ?_,
    hrow.reads_fragment hnext hlength (hrow.head?_ne fun min max lazy => ?_),
    hnested.plain.fragmentTokens p.modes, fun _ => isCapture_of_mem_fragmentTokens,
    fun _ => mem_fragmentTokens hbody⟩
  · rw [fragment, hcaptures]
    rfl
  · rw [← hspots]
    exact ha.head?_ne_quantifier hrun' min max lazy

end Switchboard.Pattern
