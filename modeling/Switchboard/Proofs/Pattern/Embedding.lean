import Switchboard.Proofs.Pattern.Mirror

/-!
# Embedding a Pattern

A pattern is read up to its body, which the fragment does not see any more, and then along with the
fragment. The fragment is put in a capturing group; if the pattern has modes, there is another group
inside, which sets them. Behind the margin this group takes a whole word exactly when the pattern does.

A dollar at the end of the pattern is not in the fragment. It does not matter to the ways that take all
of the text, though it does to the others, and so the two are only compared on a whole word.

## Main results

* `Rows.reads_fragment`: the group of a fragment is read as its tokens.
* `exists_run_group`: they are assembled to one item, with the ways of the pattern.
* `exists_embedding`: reading and assembling together.
-/

namespace Switchboard.Pattern

/-! ### Up to the body -/

namespace Assembly

/-- No more of a pattern has been read than modes and anchors that hold at the start of the text. -/
structure Untouched (a : Assembly) : Prop where
  outer_eq : a.outer = []
  earlier_eq : a.level.earlier = []
  idle : ∀ p ∈ a.level.current, p.Idle fun st => st.before = []

theorem untouched_start (modes : Modes) : (start modes).Untouched := ⟨rfl, rfl, nofun⟩

/-- Modes and the caret leave the pattern untouched. -/
theorem Untouched.step {a a' : Assembly} (h : a.Untouched) {spot : Spot}
    (htoken : spot.token.isModes = true ∨ spot.token = .caret) (hstep : a.step spot = .ok a') :
    a'.Untouched ∧
      spot.token.nesting [a.level.modes.verbose] = [a'.level.modes.verbose] := by
  obtain ⟨place, token⟩ := spot
  simp only at htoken ⊢
  cases token with
  | modes change =>
      simp only [Assembly.step] at hstep
      split at hstep
      · obtain rfl := Except.ok.inj hstep
        exact ⟨⟨h.outer_eq, h.earlier_eq, h.idle⟩, rfl⟩
      · cases hstep
  | caret =>
      obtain rfl := Except.ok.inj hstep
      refine ⟨⟨h.outer_eq, h.earlier_eq, List.forall_mem_cons.mpr ⟨⟨_, rfl, fun st hst => ?_⟩, h.idle⟩⟩,
        rfl⟩
      split <;> simp [Anchor.holds, hst]
  | _ => rcases htoken with htoken | htoken <;> cases htoken

/-- **In front of the body** the pattern stays untouched, and the scan knows whether text is
verbose. -/
theorem Untouched.run {a a' : Assembly} (h : a.Untouched) {spots : List Spot}
    (htokens : ∀ spot ∈ spots, spot.token.isModes = true ∨ spot.token = .caret)
    (hrun : a.run spots = .ok a') :
    a'.Untouched ∧ (spots.map (·.token)).foldl Token.nesting [a.level.modes.verbose] =
      [a'.level.modes.verbose] := by
  induction spots generalizing a with
  | nil =>
      obtain rfl := Except.ok.inj hrun
      exact ⟨h, rfl⟩
  | cons spot spots ih =>
      obtain ⟨hspot, hspots⟩ := List.forall_mem_cons.mp htokens
      obtain ⟨next, hstep, hrun⟩ := run_cons_eq_ok_iff.mp hrun
      obtain ⟨hnext, hnesting⟩ := h.step hspot hstep
      rw [List.map_cons, List.foldl_cons, hnesting]
      exact ih hnext hspots hrun

/-- There is nothing to repeat in front of the body. -/
theorem Untouched.ne_quantifier {a a' : Assembly} (h : a.Untouched) {spot : Spot}
    (hstep : a.step spot = .ok a') (min : Nat) (max : Option Nat) (lazy : Bool) :
    spot.token ≠ .quantifier min max lazy := by
  obtain ⟨place, token⟩ := spot
  rintro rfl
  simp only [Assembly.step, repeatLast] at hstep
  split at hstep
  · rename_i e pieces hcurrent
    obtain ⟨a, heq, -⟩ := h.idle ⟨e, .item⟩ (hcurrent ▸ List.mem_cons_self)
    cases heq
  · cases hstep
  · cases hstep

/-- The fragment starts with an empty group. -/
theorem Untouched.mirrors {a b : Assembly} (h : a.Untouched) (word : List Char)
    (hmodes : a.level.modes.SameButLines b.level.modes) (hearlier : b.level.earlier = [])
    (hcurrent : b.level.current = []) : Mirrors word a b a b where
  stacked := by
    rw [h.outer_eq]
    refine .outermost ⟨hmodes, ?_, [], a.level.current, rfl, h.idle, ?_⟩ rfl rfl
    · rw [h.earlier_eq, hearlier]
      exact .nil
    · rw [hcurrent]
      exact .nil
  rest_eq := rfl

/-- The body leaves the modes of the pattern as they are. -/
theorem Untouched.modes_of_run {a a' : Assembly} (h : a.Untouched) {spots : List Spot}
    (hkeeps : ∀ spot ∈ spots, spot.token.keeps = true) (hrun : a.run spots = .ok a')
    (houter : a'.outer = []) : a'.level.modes = a.level.modes := by
  -- any fragment will do, and the plain tokens of the body are one
  have hspots : (spots.map fun spot : Spot => (⟨0, spot.token.plain⟩ : Spot)).map (·.token) =
      spots.map (·.token.plain) := by simp
  obtain ⟨b, -, hmirrors⟩ := (h.mirrors ['w'] (b := start a.level.modes)
    (.refl _) rfl rfl).run (by simp) (by simp) hkeeps hspots hrun
  exact (hmirrors.closed houter).2.2.1

end Assembly

/-! ### A dollar at the end -/

/-- **A dollar at the end** of a pattern makes no difference to the ways that take all of the text. -/
theorem Level.exists_whole_dollar (l : Level) {a : Anchor} (ha : a.EndsLine) (st : State) :
    (∃ last ∈ ({ l with current := ⟨.anchor a, .anchor⟩ :: l.current } : Level).expr.ways st,
        last.after = []) ↔ ∃ last ∈ l.expr.ways st, last.after = [] := by
  have hholds : ∀ last : State, last.after = [] → a.holds last = true := by
    intro last hlast
    rw [ha.holds_eq (by simp [hlast]), hlast]
    rfl
  have hsequence : ∀ last : State, last.after = [] →
      (last ∈ (Piece.sequence (⟨.anchor a, .anchor⟩ :: l.current).reverse).ways st ↔
        last ∈ (Piece.sequence l.current.reverse).ways st) := by
    intro last hlast
    rw [Piece.sequence, Piece.sequence, Expr.ways_seqAll, Expr.ways_seqAll, List.reverse_cons,
      List.map_append, waysAll_append, List.mem_flatMap]
    constructor
    · rintro ⟨mid, hmid, hend⟩
      rw [List.map_singleton, waysAll_singleton, Expr.ways] at hend
      split at hend
      · exact List.mem_singleton.mp hend ▸ hmid
      · cases hend
    · intro hmem
      refine ⟨last, hmem, ?_⟩
      rw [List.map_singleton, waysAll_singleton, Expr.ways, if_pos (hholds last hlast)]
      exact List.mem_singleton_self last
  refine exists_congr fun last => and_congr_left fun hlast => ?_
  rw [Level.expr_eq, Level.expr_eq, Expr.ways_altAll (by simp), Expr.ways_altAll (by simp)]
  simp only [List.mem_flatMap, List.mem_reverse, List.mem_cons, exists_eq_or_imp,
    hsequence last hlast]

/-! ### Reading the group of a fragment -/

/-- A row in a group is read as what opens the group, its plain tokens, and what closes it. -/
theorem Rows.reads_enclosed {b : Bool} {text plain next : List Char} {tokens : List Token}
    (h : Rows [b] text plain tokens next) (hnext : followers next = [])
    (hlength : (tokens.foldl Token.nesting [b]).length = 1) (c : Char) (cs : List Char) {first : Token}
    (hread : ∀ rest, Token.read false c (cs ++ (plain ++ ')' :: rest)) = (first, plain ++ ')' :: rest))
    (hnesting : ∀ verbose, Terse verbose → first.nesting verbose = b :: verbose) :
    Reads (c :: cs ++ plain ++ [')']) (first :: tokens.map Token.plain ++ [.close]) := by
  intro rest fuel verbose place hrest hterse hfuel
  have hsource : c :: cs ++ plain ++ [')'] ++ rest = c :: (cs ++ (plain ++ ')' :: rest)) := by simp
  obtain ⟨b', hb'⟩ := List.length_eq_one_iff.mp hlength
  have hclose : followers (')' :: rest) = followers next := by
    rw [hnext]
    rfl
  rw [hsource] at hfuel ⊢
  simp only [List.length_cons, List.length_append] at hfuel
  match fuel, hfuel with
  | fuel + 1, hfuel =>
    obtain ⟨place₁, hscan₁⟩ := scanFrom_cons hterse (hread rest) fuel place
    obtain ⟨spots, fuel₂, place₂, hscan₂, hspots, hfuel₂⟩ :=
      h.scanFrom_eq verbose hclose fuel place₁ (by simp; omega)
    rw [hnesting verbose hterse] at hscan₁
    rw [hb'] at hscan₂
    match fuel₂, hfuel₂ with
    | fuel₂ + 1, hfuel₂ =>
      have hread' : Token.read b' ')' rest = (.close, rest) := by cases b' <;> rfl
      refine ⟨⟨place, first⟩ :: (spots ++ [⟨place₂, .close⟩]), fuel₂, verbose,
        place₂ + (rest.length + 1 - rest.length), ?_, by simp [hspots], hterse, ?_⟩
      · rw [hscan₁]
        change _ :: scanFrom fuel ([b] ++ verbose) place₁ _ = _
        rw [hscan₂]
        change _ :: (spots ++ scanFrom (fuel₂ + 1) (b' :: verbose) place₂ (')' :: rest)) = _
        rw [scanFrom, List.headD_cons, hread']
        simp [Token.nesting]
      · simpa using hfuel₂

/-- The text of a fragment: its body, in a group of its own if it has modes. -/
def fragmentText (m : Modes) (body : List Char) : List Char :=
  match m.letters with
  | [] => body
  | letters => '(' :: '?' :: letters ++ ':' :: body ++ [')']

/-- The tokens of a fragment. -/
def fragmentTokens (m : Modes) (body : List Token) : List Token :=
  if m = {} then body else .openPlain { on := m } :: body ++ [.close]

theorem fragmentText_eq (m : Modes) (body : List Char) :
    fragmentText m body =
      if m = {} then body else '(' :: '?' :: m.letters ++ ':' :: body ++ [')'] := by
  rcases m with ⟨_ | _, _ | _, _ | _, _ | _, _ | _⟩ <;> rfl

/-- The letters of modes set these modes for a group. -/
theorem read_letters (m : Modes) (rest : List Char) :
    Token.read false '(' ('?' :: m.letters ++ ':' :: rest) = (.openPlain { on := m }, rest) := by
  rcases m with ⟨_ | _, _ | _, _ | _, _ | _, _ | _⟩ <;> rfl

/-- **The group of a fragment** is read as its tokens. -/
theorem Rows.reads_fragment {m : Modes} {text body next : List Char} {tokens : List Token}
    (h : Rows [m.verbose] text body tokens next) (hnext : followers next = [])
    (hlength : (tokens.foldl Token.nesting [m.verbose]).length = 1) (hhead : body.head? ≠ some '?') :
    Reads ('(' :: fragmentText m body ++ [')'])
      (.openCapture none :: fragmentTokens m (tokens.map Token.plain) ++ [.close]) := by
  rw [fragmentText_eq, fragmentTokens]
  by_cases hm : m = {}
  · subst hm
    rw [if_pos rfl, if_pos rfl]
    have hopen : ∀ rest, (body ++ ')' :: rest).head? ≠ some '?' :=
      fun rest => head?_append_ne hhead (by simp)
    exact h.reads_enclosed hnext hlength '(' [] (fun rest => read_openCapture (hopen rest))
      fun verbose hterse => by rw [Token.nesting, hterse.headD]
  · rw [if_neg hm, if_neg hm]
    have hinner := h.reads_enclosed hnext hlength '(' ('?' :: m.letters ++ [':'])
      (fun rest => by simpa using read_letters m (body ++ ')' :: rest)) fun verbose hterse => by
        rw [Token.nesting, hterse.headD]; simp
    have houter := reads_openCapture.append (hinner.append reads_close (by simp)) (by simp)
    simpa using houter

/-! ### Assembling the group of a fragment -/

theorem sameButLines_apply (m : Modes) :
    m.SameButLines (({ on := m } : ModeChange).apply lineModes) := by
  rcases m with ⟨_ | _, _ | _, _ | _, _ | _, _ | _⟩ <;> exact ⟨rfl, rfl, rfl, rfl⟩

/-- The expression of a group with nothing but one piece. -/
theorem Level.expr_push (l : Level) (hearlier : l.earlier = []) (hcurrent : l.current = []) (e : Expr)
    (kind : PieceKind) : ({ l with current := ⟨e, kind⟩ :: l.current } : Level).expr = e := by
  simp [Level.expr, hearlier, hcurrent, Expr.altAll, Expr.seqAll]

/-- A word by itself, and at the end of another text. -/
structure IsLine (word : List Char) : Prop where
  ne_nil : word ≠ []
  no_feed : '\n' ∉ word

/-- The body of a pattern fills a group of a fragment with an expression that has the ways of the
pattern. -/
theorem exists_run_filling {a a' b : Assembly} (ha : a.Untouched) {spots spots' : List Spot}
    (hkeeps : ∀ spot ∈ spots, spot.token.keeps = true) (hrun : a.run spots = .ok a')
    (houter : a'.outer = []) (hmodes : a.level.modes.SameButLines b.level.modes)
    (hearlier : b.level.earlier = []) (hcurrent : b.level.current = [])
    (htokens : spots'.map (·.token) = spots.map (·.token.plain)) :
    ∃ level : Level, b.run spots' = .ok { b with level } ∧ level.purpose = b.level.purpose ∧
      ∀ word, IsLine word →
        SameWays word (fun st => st.before = []) a'.level.expr.ways level.expr.ways := by
  have hall : ∀ word, IsLine word → ∃ level : Level, b.run spots' = .ok { b with level } ∧
      level.purpose = b.level.purpose ∧
      SameWays word (fun st => st.before = []) a'.level.expr.ways level.expr.ways := by
    intro word hword
    obtain ⟨b', hrun', hmirrors⟩ := (ha.mirrors word hmodes hearlier hcurrent).run
      hword.ne_nil hword.no_feed hkeeps htokens hrun
    obtain ⟨houter', hsame, -, hpurpose⟩ := hmirrors.closed houter
    refine ⟨b'.level, ?_, hpurpose, hsame.expr⟩
    rw [hrun', hmirrors.rest_eq, houter']
  -- the run is the same for all words, and one is needed to see that there is one
  obtain ⟨level, hrun', hpurpose, -⟩ := hall ['w'] ⟨by simp, by simp⟩
  refine ⟨level, hrun', hpurpose, fun word hword => ?_⟩
  obtain ⟨level', hrun'', -, hways⟩ := hall word hword
  have heq := congrArg Assembly.level (Except.ok.inj (hrun'.symm.trans hrun''))
  simp only at heq
  rwa [heq]

/-- **A fragment fills its group** with an expression that has the ways of the pattern. -/
theorem exists_run_fragment {a a' b : Assembly} (ha : a.Untouched) {spots spots' : List Spot}
    (hkeeps : ∀ spot ∈ spots, spot.token.keeps = true) (hrun : a.run spots = .ok a')
    (houter : a'.outer = []) (hmodes : b.level.modes = lineModes) (hearlier : b.level.earlier = [])
    (hcurrent : b.level.current = [])
    (htokens : spots'.map (·.token) = fragmentTokens a.level.modes (spots.map (·.token.plain))) :
    ∃ level : Level, b.run spots' = .ok { b with level } ∧ level.purpose = b.level.purpose ∧
      ∀ word, IsLine word →
        SameWays word (fun st => st.before = []) a'.level.expr.ways level.expr.ways := by
  rw [fragmentTokens] at htokens
  by_cases hm : a.level.modes = {}
  · rw [if_pos hm] at htokens
    exact exists_run_filling ha hkeeps hrun houter (by rw [hm, hmodes]; exact ⟨rfl, rfl, rfl, rfl⟩)
      hearlier hcurrent htokens
  · rw [if_neg hm] at htokens
    obtain ⟨place, inner, place', rfl, hinner⟩ := exists_enclosed htokens
    let opened := b.openLevel .plain place (({ on := a.level.modes } : ModeChange).apply b.level.modes)
    obtain ⟨level, hrun', hpurpose, hways⟩ := exists_run_filling (b := opened) ha hkeeps hrun houter
      (by simp only [opened, Assembly.openLevel, hmodes]; exact sameButLines_apply _) rfl rfl hinner
    refine ⟨{ b.level with current := ⟨level.expr, .item⟩ :: b.level.current }, ?_, rfl,
      fun word hword => ?_⟩
    · have hopen : b.step ⟨place, .openPlain { on := a.level.modes }⟩ = .ok opened := rfl
      refine run_enclosed hopen hrun' ?_
      have hplain : level.purpose = .plain := hpurpose
      simp only [Assembly.step, Assembly.closeLevel, opened, Assembly.openLevel, hplain]
      rfl
    · rw [Level.expr_push _ hearlier hcurrent]
      exact hways word hword

/-- **The group of a fragment** becomes one item of the pattern around it. -/
theorem exists_run_group {a a' b : Assembly} (ha : a.Untouched) {spots spots' : List Spot}
    (hkeeps : ∀ spot ∈ spots, spot.token.keeps = true) (hrun : a.run spots = .ok a')
    (houter : a'.outer = []) (hmodes : b.level.modes = lineModes)
    (htokens : spots'.map (·.token) =
      .openCapture none :: fragmentTokens a.level.modes (spots.map (·.token.plain)) ++ [.close]) :
    ∃ e widths, b.run spots' = .ok (b.grow [⟨.group (b.groups + 1) e, .item⟩] 1 widths) ∧
      ∀ word, IsLine word → SameWays word (fun st => st.before = []) a'.level.expr.ways e.ways := by
  obtain ⟨place, inner, place', rfl, hinner⟩ := exists_enclosed htokens
  let opened := { b with groups := b.groups + 1 }.openLevel (.capture (b.groups + 1)) place b.level.modes
  obtain ⟨level, hrun', hpurpose, hways⟩ :=
    exists_run_fragment (b := opened) ha hkeeps hrun houter hmodes rfl rfl hinner
  have hcapture : level.purpose = .capture (b.groups + 1) := hpurpose
  let filled := { opened with level }
  have hopen : b.step ⟨place, .openCapture none⟩ = .ok opened := rfl
  refine ⟨level.expr, (b.groups + 1, level.expr.width filled.widthOf) :: b.widths,
    run_enclosed hopen hrun' ?_, hways⟩
  simp only [Assembly.step, Assembly.closeLevel, opened, Assembly.openLevel, hcapture]
  rfl

/-! ### Embedding -/

/-- What reading a pattern gives. -/
theorem read_eq_ok_iff {source : String} {modes : Modes} {p : Pattern} :
    read source modes = .ok p ↔
      ∃ done, (Assembly.start modes).run (scan modes.verbose source.toList) = .ok done ∧
        done.outer = [] ∧ done.uneven = false ∧
        p = { source, modes := done.level.modes, expr := done.level.expr, groups := done.groups } := by
  rw [read]
  cases (Assembly.start modes).run (scan modes.verbose source.toList) with
  | error fault => simp [bind, Except.bind]
  | ok done =>
      simp only [bind, Except.bind, Assembly.finish, pure, Except.pure, Except.ok.injEq,
        exists_eq_left']
      cases houter : done.outer with
      | cons level outer => simp
      | nil => cases huneven : done.uneven <;> simp [eq_comm]

/-- The run over the body of a pattern, up to a dollar at the end. -/
theorem exists_run_body {a done : Assembly} {spots : List Spot} (hrun : a.run spots = .ok done)
    (houter : done.outer = []) {body : List Token}
    (hbody : spots.map (·.token) = body ∨ spots.map (·.token) = body ++ [.dollar]) :
    ∃ bodySpots a', bodySpots.map (·.token) = body ∧ a.run bodySpots = .ok a' ∧ a'.outer = [] ∧
      done.level.modes = a'.level.modes ∧
      ∀ st, (∃ last ∈ done.level.expr.ways st, last.after = []) ↔
        ∃ last ∈ a'.level.expr.ways st, last.after = [] := by
  rcases hbody with hbody | hbody
  · exact ⟨spots, done, hbody, hrun, houter, rfl, fun st => Iff.rfl⟩
  · obtain ⟨front, back, rfl, hfront, hback⟩ := List.map_eq_append_iff.mp hbody
    obtain ⟨place, rfl⟩ := exists_eq_singleton hback
    obtain ⟨a', hrun', hlast⟩ := Assembly.run_append_eq_ok_iff.mp hrun
    rw [Assembly.run_singleton] at hlast
    obtain rfl := Except.ok.inj hlast
    refine ⟨front, a', hfront, hrun', houter, rfl, fun st => a'.level.exists_whole_dollar ?_ st⟩
    split
    · exact .inl rfl
    · exact .inr rfl

/-- The first token of a body repeats nothing. -/
theorem Assembly.Untouched.head?_ne_quantifier {a a' : Assembly} (h : a.Untouched) {spots : List Spot}
    (hrun : a.run spots = .ok a') (min : Nat) (max : Option Nat) (lazy : Bool) :
    (spots.map (·.token)).head? ≠ some (.quantifier min max lazy) := by
  cases spots with
  | nil => simp
  | cons spot spots =>
      obtain ⟨next, hstep, -⟩ := run_cons_eq_ok_iff.mp hrun
      simpa using h.ne_quantifier hstep min max lazy

/-- The run over what is in front of the body of a pattern. -/
theorem exists_run_front {modes : Modes} {done : Assembly} {spots : List Spot}
    (hrun : (Assembly.start modes).run spots = .ok done) {tokens : List Token}
    (htokens : spots.map (·.token) = tokens) :
    ∃ (a : Assembly) (front rest : List Spot), (Assembly.start modes).run front = .ok a ∧
      a.Untouched ∧ a.run rest = .ok done ∧ rest.map (·.token) = bodyTokens tokens ∧
      (tokens.takeWhile Token.isModes).foldl Token.nesting [modes.verbose] =
        [a.level.modes.verbose] := by
  obtain ⟨caret, heq, hcaret⟩ := exists_eq_append_bodyTokens tokens
  obtain ⟨front, rest, rfl, hfront, hrest⟩ := List.map_eq_append_iff.mp
    (htokens.trans (heq.trans (List.append_assoc _ _ _).symm))
  obtain ⟨a, hrun₁, hrun₂⟩ := Assembly.run_append_eq_ok_iff.mp hrun
  have htoken : ∀ spot ∈ front, spot.token.isModes = true ∨ spot.token = .caret := by
    intro spot hspot
    have hmem : spot.token ∈ tokens.takeWhile Token.isModes ++ caret :=
      hfront ▸ List.mem_map_of_mem hspot
    rcases List.mem_append.mp hmem with hmodes | hmem
    · exact .inl (List.mem_takeWhile_imp hmodes)
    · rcases hcaret with rfl | rfl
      · cases hmem
      · exact .inr (List.mem_singleton.mp hmem)
  obtain ⟨ha, hverbose⟩ := (Assembly.untouched_start modes).run htoken hrun₁
  refine ⟨a, front, rest, hrun₁, ha, hrun₂, hrest, ?_⟩
  rw [← hverbose, hfront, List.foldl_append]
  rcases hcaret with rfl | rfl <;> rfl

/-- **Embedding a pattern.** The fragment of an embeddable pattern is read, in a group, as one item of
the pattern around it. When the word stands behind the margin, the group takes all that is left exactly
when the pattern takes the whole word. -/
theorem exists_embedding {source : String} {modes : Modes} {p : Pattern}
    (hread : read source modes = .ok p) (h : Embeddable modes.verbose source.toList) :
    ∃ text tokens, p.fragment = some text ∧ Reads ('(' :: text ++ [')']) tokens ∧
      ∀ (b : Assembly) (spots : List Spot), b.level.modes = lineModes →
        spots.map (·.token) = tokens →
        ∃ e widths, b.run spots = .ok (b.grow [⟨.group (b.groups + 1) e, .item⟩] 1 widths) ∧
          ∀ word st, IsLine word → Near word (.start word) st →
            ((∃ last ∈ p.expr.ways (.start word), last.after = []) ↔
              ∃ last ∈ e.ways st, last.after = []) := by
  obtain ⟨done, hrun, houter, -, rfl⟩ := read_eq_ok_iff.mp hread
  obtain ⟨tokens, htokens⟩ : ∃ tokens, (scan modes.verbose source.toList).map (·.token) = tokens :=
    ⟨_, rfl⟩
  obtain ⟨plain, text, body, next, hcaptures, hrow, hnext, hbody⟩ := h.exists_row rfl hrun htokens
  obtain ⟨a, -, rest, -, ha, hrun', hrest, hstack⟩ := exists_run_front hrun htokens
  rw [hstack] at hrow
  obtain ⟨spots, a', hspots, hrun', houter', hmodes, hwhole⟩ :=
    exists_run_body hrun' houter (hrest ▸ hbody)
  have hkeeps : ∀ spot ∈ spots, spot.token.keeps = true := by
    intro spot hspot
    refine h.keeps _ (htokens ▸ ?_)
    have hmem : spot.token ∈ body := hspots ▸ List.mem_map_of_mem hspot
    rcases hbody with hbody | hbody <;> (rw [hbody]; simp [hmem])
  rw [ha.modes_of_run hkeeps hrun' houter'] at hmodes
  rw [← hspots] at hrow
  have hlength := Assembly.length_foldl_nesting hrun' [a.level.modes.verbose]
    (by rw [ha.outer_eq]; rfl)
  rw [houter'] at hlength
  have hreads := hrow.reads_fragment hnext hlength
    (hrow.head?_ne fun min max lazy => ha.head?_ne_quantifier hrun' min max lazy)
  refine ⟨fragmentText a.level.modes (withoutAnchors (withoutModes plain)), _, ?_, hreads, ?_⟩
  · rw [fragment, hcaptures, hmodes]
    rfl
  · intro b spots' hb htokens'
    rw [List.map_map] at htokens'
    obtain ⟨e, widths, hrun'', hways⟩ := exists_run_group ha hkeeps hrun' houter' hb htokens'
    refine ⟨e, widths, hrun'', fun word st hword hnear => ?_⟩
    exact (hwhole _).trans ((hways word hword).exists_whole_iff rfl hnear)

end Switchboard.Pattern
