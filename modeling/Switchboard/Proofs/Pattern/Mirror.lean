import Switchboard.Proofs.Pattern.Fragment
import Switchboard.Proofs.Pattern.Nearby
import Switchboard.Proofs.Pattern.Reading

/-!
# Assembling a Fragment

The tokens of a pattern and the plain tokens of its fragment are assembled side by side. The fragment
stands in another pattern, where other groups are open around it and where caret and dollar stand for
the ends of lines; and its groups do not capture. `Mirrors` relates the two states of the assembly: the
open groups are related one by one (`Stacked`), and what is known of two groups (`Level.Same`) is that
their pieces have the same ways so far.

The outermost group is special in one way. In front of the body the pattern may have asked for the
start of the text, and the fragment has not; so there the ways are compared at the start of the word
only.

## Main results

* `Assembly.exists_run_of_step`: what every token preserves, a run preserves.
* `Level.Same.expr`: the expressions of related groups have the same ways.
* `Assembly.Mirrors.step`, `Assembly.Mirrors.run`: one token, and all of them.
-/

namespace Switchboard.Pattern

/-- **Runs side by side.** When every token keeps two states of the assembly related, the token itself
on one side and the plain token on the other, then all tokens together do. -/
theorem Assembly.exists_run_of_step {R : Assembly → Assembly → Prop} {P : Token → Prop}
    (hstep : ∀ {a a' b : Assembly} {spot spot' : Spot}, R a b → P spot.token →
      spot'.token = spot.token.plain → a.step spot = .ok a' →
      ∃ b', b.step spot' = .ok b' ∧ R a' b')
    {a a' b : Assembly} (h : R a b) {spots spots' : List Spot}
    (hspots : ∀ spot ∈ spots, P spot.token)
    (htokens : spots'.map (·.token) = spots.map (·.token.plain)) (hrun : a.run spots = .ok a') :
    ∃ b', b.run spots' = .ok b' ∧ R a' b' := by
  induction spots generalizing a b spots' with
  | nil =>
      obtain rfl := List.map_eq_nil_iff.mp htokens
      obtain rfl := Except.ok.inj hrun
      exact ⟨b, rfl, h⟩
  | cons spot spots ih =>
      obtain ⟨spot', spots', rfl, htoken, htokens⟩ := List.map_eq_cons_iff.mp htokens
      obtain ⟨next, hnext, hrun⟩ := run_cons_eq_ok_iff.mp hrun
      obtain ⟨hspot, hspots⟩ := List.forall_mem_cons.mp hspots
      obtain ⟨next', hnext', hrelated⟩ := hstep h hspot htoken hnext
      obtain ⟨b', hrun', hend⟩ := ih hrelated hspots htokens hrun
      exact ⟨b', run_cons_eq_ok_iff.mpr ⟨next', hnext', hrun'⟩, hend⟩

/-- Two sets of modes that differ at most in what caret and dollar stand for. -/
def Modes.SameButLines (m m' : Modes) : Prop :=
  m'.ignoreCase = m.ignoreCase ∧ m'.dotAll = m.dotAll ∧ m'.ascii = m.ascii ∧ m'.verbose = m.verbose

theorem Modes.SameButLines.refl (m : Modes) : m.SameButLines m := ⟨rfl, rfl, rfl, rfl⟩

theorem Modes.SameButLines.apply {m m' : Modes} (h : m.SameButLines m') (change : ModeChange) :
    (change.apply m).SameButLines (change.apply m') := by
  obtain ⟨hcase, hdot, hascii, hverbose⟩ := h
  unfold ModeChange.apply
  split <;> simp [SameButLines, union, without, hcase, hdot, hascii, hverbose]

theorem Modes.SameButLines.charSet {m m' : Modes} (h : m.SameButLines m') (negated : Bool)
    (items : List ClassItem) :
    Assembly.charSet m' negated items = Assembly.charSet m negated items := by
  obtain ⟨hcase, hdot, hascii, -⟩ := h
  simp [Assembly.charSet, Assembly.letterRule, hcase, hascii]

section

variable {word : List Char}

/-- A piece of a pattern and the one of its fragment. -/
structure Piece.Same (word : List Char) (p p' : Piece) : Prop where
  kind_eq : p'.kind = p.kind
  expr : p.expr.Same word p'.expr

/-- Anchors that hold at the places in question. -/
def Piece.Idle (P : State → Prop) (p : Piece) : Prop :=
  ∃ a, p = ⟨.anchor a, .anchor⟩ ∧ ∀ st, P st → a.holds st = true

/-- A group of a pattern and the one of its fragment, as far as they have been read. In the group of
the pattern there may be anchors at the start that hold where the group is entered. -/
structure Level.Same (word : List Char) (P : State → Prop) (l l' : Level) : Prop where
  modes : l.modes.SameButLines l'.modes
  earlier : List.Forall₂ (fun e e' => SameWays word P e.ways e'.ways) l.earlier l'.earlier
  current : ∃ pieces front, l.current = pieces ++ front ∧ (∀ p ∈ front, p.Idle P) ∧
    List.Forall₂ (Piece.Same word) pieces l'.current

/-- Anchors that hold where they are reached are passed. -/
theorem waysAll_idle {P : State → Prop} {front : List Piece} (h : ∀ p ∈ front, p.Idle P) {st : State}
    (hst : P st) : waysAll (front.map (·.expr)) st = [st] := by
  induction front with
  | nil => rfl
  | cons p front ih =>
      obtain ⟨⟨a, rfl, ha⟩, hfront⟩ := List.forall_mem_cons.mp h
      simp [waysAll, Expr.ways, ha st hst, ih hfront]

theorem sameWays_sequence {P : State → Prop} {pieces pieces' front : List Piece}
    (hfront : ∀ p ∈ front, p.Idle P) (h : List.Forall₂ (Piece.Same word) pieces pieces') :
    SameWays word P (Piece.sequence (pieces ++ front).reverse).ways
      (Piece.sequence pieces'.reverse).ways := by
  intro st st' hst hnear
  rw [Piece.sequence, Piece.sequence, Expr.ways_seqAll, Expr.ways_seqAll, List.reverse_append,
    List.map_append, waysAll_append,
    waysAll_idle (fun p hp => hfront p (List.mem_reverse.mp hp)) hst, List.flatMap_singleton]
  refine sameWays_waysAll ?_ trivial hnear
  rw [List.forall₂_map_left_iff, List.forall₂_map_right_iff]
  exact (List.rel_reverse h).imp fun _ _ hpiece => hpiece.expr

theorem Level.expr_eq (l : Level) :
    l.expr = Expr.altAll (Piece.sequence l.current.reverse :: l.earlier).reverse := rfl

/-- **The expressions of two such groups** have the same ways. -/
theorem Level.Same.expr {P : State → Prop} {l l' : Level} (h : l.Same word P l') :
    SameWays word P l.expr.ways l'.expr.ways := by
  obtain ⟨pieces, front, hcurrent, hfront, hpieces⟩ := h.current
  rw [l.expr_eq, l'.expr_eq]
  refine sameWays_altAll (List.rel_reverse (.cons ?_ h.earlier)) (by simp)
  rw [hcurrent]
  exact sameWays_sequence hfront hpieces

theorem Level.Same.push {P : State → Prop} {l l' : Level} (h : l.Same word P l') {p p' : Piece}
    (hp : p.Same word p') :
    Level.Same word P { l with current := p :: l.current } { l' with current := p' :: l'.current } := by
  obtain ⟨pieces, front, hcurrent, hfront, hpieces⟩ := h.current
  exact ⟨h.modes, h.earlier, p :: pieces, front, by rw [hcurrent]; rfl, hfront, .cons hp hpieces⟩

/-- The last piece of the group, if it can be repeated, is one of the fragment, too. -/
theorem Level.Same.of_item {P : State → Prop} {l l' : Level} (h : l.Same word P l') {e : Expr}
    {pieces : List Piece} (hcurrent : l.current = ⟨e, .item⟩ :: pieces) :
    ∃ e' pieces', l'.current = ⟨e', .item⟩ :: pieces' ∧ e.Same word e' ∧
      Level.Same word P { l with current := pieces } { l' with current := pieces' } := by
  obtain ⟨all, front, hall, hfront, hpieces⟩ := h.current
  rw [hcurrent] at hall
  generalize l'.current = all' at hpieces ⊢
  cases hpieces with
  | nil =>
      rw [List.nil_append] at hall
      obtain ⟨a, heq, -⟩ := hfront ⟨e, .item⟩ (hall ▸ List.mem_cons_self)
      cases heq
  | @cons p p' all all' hp hpieces =>
      obtain ⟨rfl, rfl⟩ := List.cons.inj hall
      obtain ⟨e', kind⟩ := p'
      obtain rfl : kind = .item := hp.kind_eq
      exact ⟨e', all', rfl, hp.expr, h.modes, h.earlier, all, front, rfl, hfront, hpieces⟩

/-- Another alternative is started. -/
theorem Level.Same.bar {P : State → Prop} {l l' : Level} (h : l.Same word P l') :
    Level.Same word P
      { l with earlier := Piece.sequence l.current.reverse :: l.earlier, current := [] }
      { l' with earlier := Piece.sequence l'.current.reverse :: l'.earlier, current := [] } := by
  obtain ⟨pieces, front, hcurrent, hfront, hpieces⟩ := h.current
  refine ⟨h.modes, .cons ?_ h.earlier, [], [], rfl, nofun, .nil⟩
  rw [hcurrent]
  exact sameWays_sequence hfront hpieces

theorem Level.same_open {modes modes' : Modes} (h : modes.SameButLines modes')
    (purpose purpose' : Purpose) (place place' : Nat) :
    Level.Same word (fun _ => True) { purpose, place, modes }
      { purpose := purpose', place := place', modes := modes' } :=
  ⟨h, .nil, [], [], rfl, nofun, .nil⟩

/-- The groups that are open in a pattern, and those in its fragment. The outermost groups have
kept their modes and their purpose since the states `a₀` and `b₀`. Around the one of the fragment
stand the groups of the text that it is part of. -/
inductive Stacked (word : List Char) (a₀ b₀ : Assembly) :
    Level → List Level → Level → List Level → Prop where
  | outermost {l l' : Level} (hsame : l.Same word (fun st => st.before = []) l')
      (hmodes : l.modes = a₀.level.modes) (hpurpose : l'.purpose = b₀.level.purpose) :
      Stacked word a₀ b₀ l [] l' b₀.outer
  | inner {l l' parent parent' : Level} {outer outer' : List Level}
      (hsame : l.Same word (fun _ => True) l')
      (hpurpose : l.purpose = .plain ∨ ∃ i, l.purpose = .capture i) (hplain : l'.purpose = .plain)
      (hparent : Stacked word a₀ b₀ parent outer parent' outer') :
      Stacked word a₀ b₀ l (parent :: outer) l' (parent' :: outer')

/-- The state of the fragment, while the pattern is in another: its groups are those of the pattern,
and it captures nothing. -/
structure Assembly.Mirrors (word : List Char) (a₀ b₀ a b : Assembly) : Prop where
  stacked : Stacked word a₀ b₀ a.level a.outer b.level b.outer
  rest_eq : b = { b₀ with level := b.level, outer := b.outer }

/-- A change to the innermost group. -/
theorem Stacked.imp {a₀ b₀ : Assembly} {l l' m m' : Level} {outer outer' : List Level}
    (h : Stacked word a₀ b₀ l outer l' outer')
    (hsame : ∀ P, l.Same word P l' → m.Same word P m') (hmodes : m.modes = l.modes)
    (hpurpose : m.purpose = l.purpose) (hpurpose' : m'.purpose = l'.purpose) :
    Stacked word a₀ b₀ m outer m' outer' := by
  cases h with
  | outermost hl hm hp => exact .outermost (hsame _ hl) (hmodes.trans hm) (hpurpose'.trans hp)
  | inner hl hp hplain hparent =>
      exact .inner (hsame _ hl) (by rwa [hpurpose]) (hpurpose'.trans hplain) hparent

theorem Stacked.exists_same {a₀ b₀ : Assembly} {l l' : Level} {outer outer' : List Level}
    (h : Stacked word a₀ b₀ l outer l' outer') : ∃ P, l.Same word P l' := by
  cases h with
  | outermost hsame => exact ⟨_, hsame⟩
  | inner hsame => exact ⟨_, hsame⟩

/-- A group that is open in another one. -/
theorem Stacked.of_cons {a₀ b₀ : Assembly} {l l' parent : Level} {all outer all' : List Level}
    (h : Stacked word a₀ b₀ l all l' all') (hall : all = parent :: outer) :
    ∃ parent' outer', all' = parent' :: outer' ∧ l.Same word (fun _ => True) l' ∧
      (l.purpose = .plain ∨ ∃ i, l.purpose = .capture i) ∧ l'.purpose = .plain ∧
      Stacked word a₀ b₀ parent outer parent' outer' := by
  cases h with
  | outermost => cases hall
  | inner hsame hpurpose hplain hparent =>
      obtain ⟨rfl, rfl⟩ := List.cons.inj hall
      exact ⟨_, _, rfl, hsame, hpurpose, hplain, hparent⟩

theorem Stacked.modes {a₀ b₀ : Assembly} {l l' : Level} {outer outer' : List Level}
    (h : Stacked word a₀ b₀ l outer l' outer') : l.modes.SameButLines l'.modes := by
  cases h with
  | outermost hsame => exact hsame.modes
  | inner hsame => exact hsame.modes

namespace Assembly

theorem Mirrors.push {a₀ b₀ a b : Assembly} (h : Mirrors word a₀ b₀ a b) {e e' : Expr}
    (he : e.Same word e') (kind : PieceKind) :
    Mirrors word a₀ b₀ (a.push e kind) (b.push e' kind) where
  stacked := h.stacked.imp (fun _ hl => hl.push ⟨rfl, he⟩) rfl rfl rfl
  rest_eq := by
    rw [h.rest_eq]
    rfl

/-- A group is opened. -/
theorem Mirrors.openLevel {a₀ b₀ a b : Assembly} (h : Mirrors word a₀ b₀ a b) {purpose : Purpose}
    (hpurpose : purpose = .plain ∨ ∃ i, purpose = .capture i) {modes modes' : Modes}
    (hmodes : modes.SameButLines modes') (place place' : Nat) :
    Mirrors word a₀ b₀ (a.openLevel purpose place modes) (b.openLevel .plain place' modes') where
  stacked := .inner (Level.same_open hmodes _ _ _ _) hpurpose rfl h.stacked
  rest_eq := by
    rw [h.rest_eq]
    rfl

/-- A group is closed. -/
theorem Mirrors.close {a₀ b₀ a a' b : Assembly} (h : Mirrors word a₀ b₀ a b) {place : Nat}
    (hstep : a.closeLevel place = .ok a') (place' : Nat) :
    ∃ b', b.closeLevel place' = .ok b' ∧ Mirrors word a₀ b₀ a' b' := by
  obtain ⟨parent, houter⟩ := outer_of_closeLevel hstep
  obtain ⟨parent', outer', houter', hsame, hpurpose, hplain, hparent⟩ := h.stacked.of_cons houter
  have hbody : Expr.Same word a.level.expr b.level.expr := hsame.expr
  have hbelow : Mirrors word a₀ b₀ { a with level := parent, outer := a'.outer }
      { b with level := parent', outer := outer' } :=
    ⟨hparent, by rw [h.rest_eq]⟩
  refine ⟨({ b with level := parent', outer := outer' } : Assembly).push b.level.expr, ?_, ?_⟩
  · simp only [closeLevel, houter', hplain]
  · simp only [closeLevel, houter] at hstep
    rcases hpurpose with hplain | ⟨index, hcapture⟩
    · simp only [hplain] at hstep
      rw [← Except.ok.inj hstep]
      exact hbelow.push hbody .item
    · simp only [hcapture] at hstep
      have hgroup := hbelow.push (hbody.group_left index) .item
      rw [← Except.ok.inj hstep]
      exact ⟨hgroup.stacked, hgroup.rest_eq⟩

/-- The last piece is repeated. -/
theorem Mirrors.repeatLast {a₀ b₀ a a' b : Assembly} (h : Mirrors word a₀ b₀ a b) {min : Nat}
    {max : Option Nat} {lazy : Bool} {place : Nat}
    (hstep : a.repeatLast min max lazy place = .ok a') (place' : Nat) :
    ∃ b', b.repeatLast min max lazy place' = .ok b' ∧ Mirrors word a₀ b₀ a' b' := by
  unfold Assembly.repeatLast at hstep
  split at hstep
  · rename_i e pieces hcurrent
    obtain rfl := Except.ok.inj hstep
    -- the places that `P` holds of differ from level to level, but the piece repeated does not
    obtain ⟨P, hsame⟩ := h.stacked.exists_same
    obtain ⟨e', pieces', hcurrent', -, -⟩ := hsame.of_item hcurrent
    refine ⟨_, by rw [Assembly.repeatLast, hcurrent'], ?_, by rw [h.rest_eq]⟩
    refine h.stacked.imp (fun P hsame => ?_) rfl rfl rfl
    obtain ⟨_, _, heq, he, hrest⟩ := hsame.of_item hcurrent
    rw [hcurrent'] at heq
    obtain ⟨hpiece, rfl⟩ := List.cons.inj heq
    obtain rfl := congrArg Piece.expr hpiece
    exact hrest.push ⟨rfl, he.rep min max lazy⟩
  · cases hstep
  · cases hstep

/-- **One token**: what the token does in the pattern, the plain token does in the fragment. -/
theorem Mirrors.step (hword : word ≠ []) (hline : '\n' ∉ word) {a₀ b₀ a a' b : Assembly}
    (h : Mirrors word a₀ b₀ a b) {spot spot' : Spot} (hkeeps : spot.token.keeps = true)
    (htoken : spot'.token = spot.token.plain) (hstep : a.step spot = .ok a') :
    ∃ b', b.step spot' = .ok b' ∧ Mirrors word a₀ b₀ a' b' := by
  obtain ⟨place, token⟩ := spot
  obtain ⟨place', token'⟩ := spot'
  simp only at htoken hkeeps
  subst htoken
  have hmodes := h.stacked.modes
  cases token with
  | char c =>
      obtain rfl := Except.ok.inj hstep
      refine ⟨_, rfl, ?_⟩
      simp only [hmodes.charSet]
      exact h.push (Expr.same_set _) .item
  | dot =>
      obtain rfl := Except.ok.inj hstep
      refine ⟨_, rfl, ?_⟩
      simp only [hmodes.2.1]
      exact h.push (Expr.same_set _) .item
  | set negated items =>
      obtain rfl := Except.ok.inj hstep
      refine ⟨_, rfl, ?_⟩
      simp only [hmodes.charSet]
      exact h.push (Expr.same_set _) .item
  | dollar =>
      obtain rfl := Except.ok.inj hstep
      refine ⟨_, rfl, h.push (Expr.same_endsLine hline ?_ ?_) .anchor⟩
      · split
        · exact .inl rfl
        · exact .inr rfl
      · split
        · exact .inl rfl
        · exact .inr rfl
  | textEnd =>
      obtain rfl := Except.ok.inj hstep
      exact ⟨_, rfl, h.push Expr.same_textEnd .anchor⟩
  | wordEdge negated =>
      obtain rfl := Except.ok.inj hstep
      refine ⟨_, rfl, ?_⟩
      simp only [hmodes.2.2.1]
      exact h.push (Expr.same_wordEdge hword _ _) .anchor
  | bar =>
      obtain rfl := Except.ok.inj hstep
      exact ⟨_, rfl, h.stacked.imp (fun _ hl => hl.bar) rfl rfl rfl, by rw [h.rest_eq]⟩
  | openCapture name =>
      have hopen : ∀ index, Mirrors word a₀ b₀ (a.openLevel (.capture index) place a.level.modes)
          (b.openLevel .plain place' (({} : ModeChange).apply b.level.modes)) := by
        intro index
        rw [ModeChange.apply_empty]
        exact h.openLevel (.inr ⟨index, rfl⟩) hmodes place place'
      refine ⟨_, rfl, ?_⟩
      simp only [Assembly.step, openCapture] at hstep
      split at hstep
      · obtain rfl := Except.ok.inj hstep
        exact ⟨(hopen _).stacked, (hopen 0).rest_eq⟩
      · split at hstep
        · cases hstep
        · obtain rfl := Except.ok.inj hstep
          exact ⟨(hopen _).stacked, (hopen 0).rest_eq⟩
  | openPlain change =>
      obtain rfl := Except.ok.inj hstep
      exact ⟨_, rfl, h.openLevel (.inl rfl) (hmodes.apply change) _ _⟩
  | close => exact h.close hstep place'
  | quantifier min max lazy => exact h.repeatLast hstep place'
  | comment | skipped =>
      obtain rfl := Except.ok.inj hstep
      exact ⟨_, rfl, h⟩
  | _ => cases hkeeps

/-- **A whole run**: the fragment goes along with the pattern. -/
theorem Mirrors.run (hword : word ≠ []) (hline : '\n' ∉ word) {a₀ b₀ a a' b : Assembly}
    (h : Mirrors word a₀ b₀ a b) {spots spots' : List Spot}
    (hkeeps : ∀ spot ∈ spots, spot.token.keeps = true)
    (htokens : spots'.map (·.token) = spots.map (·.token.plain)) (hrun : a.run spots = .ok a') :
    ∃ b', b.run spots' = .ok b' ∧ Mirrors word a₀ b₀ a' b' :=
  exists_run_of_step (P := fun token => token.keeps = true) (fun h => h.step hword hline) h hkeeps
    htokens hrun

/-- At the end of the pattern no group of the fragment is open but the outermost one. -/
theorem Mirrors.closed {a₀ b₀ a b : Assembly} (h : Mirrors word a₀ b₀ a b) (houter : a.outer = []) :
    b.outer = b₀.outer ∧ a.level.Same word (fun st => st.before = []) b.level ∧
      a.level.modes = a₀.level.modes ∧ b.level.purpose = b₀.level.purpose := by
  have hstacked := h.stacked
  rw [houter] at hstacked
  generalize b.outer = outer' at hstacked ⊢
  cases hstacked with
  | outermost hsame hmodes hpurpose => exact ⟨rfl, hsame, hmodes, hpurpose⟩

end Assembly

end

end Switchboard.Pattern
