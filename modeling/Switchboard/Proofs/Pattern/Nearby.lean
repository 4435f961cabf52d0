import Mathlib.Data.List.Forall2
import Switchboard.Proofs.Pattern.Greedy

/-!
# A Word behind Another One

An expression is matched with a word that stands alone, and with the same word at the end of a
text, behind a blank. `Near` relates the places in the one to those in the other, and says nothing
about what has been captured. Two expressions have the same ways at some places (`SameWays`) when
they lead from related places to related places, in the same order.

Most expressions have the same ways as themselves, since they look at what follows only. A word edge
looks back as well, but the blank is no word character, and so it is an edge just like the start of
the text. The anchors for the end of a line look for a line feed; there is none.

## Main results

* `Expr.Same.rep`, `sameWays_waysAll`, `sameWays_altAll`: how expressions with the same ways are put
  together.
* `SameWays.exists_whole_iff`: expressions with the same ways take the whole word alike.
-/

namespace Switchboard.Pattern

/-- What stands in front of the word, last character first. -/
def margin : List Char := [' ', 'w']

/-- A place in a word by itself, and the same place in the word behind the margin. -/
structure Near (word : List Char) (st st' : State) : Prop where
  after_eq : st'.after = st.after
  before_eq : st'.before = st.before ++ margin
  word_eq : st.before.reverse ++ st.after = word

section

variable {word : List Char}

/-- At the places of the word that `P` holds of, the two lead to the same places in the same order. -/
def SameWays (word : List Char) (P : State → Prop) (ways ways' : State → List State) : Prop :=
  ∀ ⦃st st'⦄, P st → Near word st st' → List.Forall₂ (Near word) (ways st) (ways' st')

/-- Two expressions have the same ways at all places. -/
def Expr.Same (word : List Char) (e e' : Expr) : Prop := SameWays word (fun _ => True) e.ways e'.ways

/-! ### Places -/

theorem Near.advance {st st' : State} (h : Near word st st') (n : Nat) :
    Near word (st.advance n) (st'.advance n) where
  after_eq := by simp only [State.advance, h.after_eq]
  before_eq := by simp only [State.advance, h.after_eq, h.before_eq, List.append_assoc]
  word_eq := by simp [State.advance, h.word_eq]

theorem Near.capture_left {st st' : State} (h : Near word st st') (i : Nat) (opened : State) :
    Near word (st.capture i opened) st' :=
  ⟨h.after_eq, h.before_eq, h.word_eq⟩

theorem Near.forall₂_singleton {st st' : State} (h : Near word st st') :
    List.Forall₂ (Near word) [st] [st'] :=
  .cons h .nil

/-! ### Expressions -/

theorem Expr.same_set (s : CharSet) : Expr.Same word (.set s) (.set s) := by
  intro st st' _ hnear
  rw [Expr.ways, Expr.ways, hnear.after_eq]
  cases st.after with
  | nil => exact .nil
  | cons c cs =>
      simp only
      split
      · exact (hnear.advance 1).forall₂_singleton
      · exact .nil

/-- A group may capture or not. -/
theorem Expr.Same.group_left {e e' : Expr} (h : Expr.Same word e e') (i : Nat) :
    Expr.Same word (.group i e) e' := by
  intro st st' hst hnear
  rw [Expr.ways, List.forall₂_map_left_iff]
  exact (h hst hnear).imp fun _ _ hnear => hnear.capture_left i st

/-- Anchors that hold alike have the same ways. -/
theorem Expr.same_anchor {a a' : Anchor} (h : ∀ st st', Near word st st' → a'.holds st' = a.holds st) :
    Expr.Same word (.anchor a) (.anchor a') := by
  intro st st' _ hnear
  rw [Expr.ways, Expr.ways, h st st' hnear]
  split
  · exact hnear.forall₂_singleton
  · exact .nil

theorem Expr.same_textEnd : Expr.Same word (.anchor .textEnd) (.anchor .textEnd) :=
  Expr.same_anchor fun st st' hnear => by simp only [Anchor.holds, hnear.after_eq]

/-- Behind a blank there is a word edge where there is one at the start of the text. -/
theorem Expr.same_wordEdge (hword : word ≠ []) (ascii negated : Bool) :
    Expr.Same word (.anchor (.wordEdge ascii negated)) (.anchor (.wordEdge ascii negated)) := by
  refine Expr.same_anchor fun st st' hnear => ?_
  -- at the start of the word the one looks back at nothing and the other at the blank
  have hblank : wordAt ascii (some ' ') = false := by cases ascii <;> decide +kernel
  simp only [Anchor.holds, hnear.after_eq, hnear.before_eq]
  cases hbefore : st.before with
  | nil =>
      have hafter : st.after ≠ [] := by
        have := hnear.word_eq
        rw [hbefore] at this
        exact fun h => hword (by rw [← this, h]; rfl)
      have hnone : wordAt ascii none = false := rfl
      simp [margin, hblank, hnone, hafter]
  | cons c cs => simp

/-- Without a line feed, lines end where the text does. -/
def Anchor.EndsLine (a : Anchor) : Prop := a = .lineEnd ∨ a = .lastLineEnd

theorem Anchor.EndsLine.holds_eq {a : Anchor} (h : a.EndsLine) {st : State} (hline : '\n' ∉ st.after) :
    a.holds st = st.after.isEmpty := by
  rcases h with rfl | rfl
  all_goals
    cases hafter : st.after with
    | nil => simp [Anchor.holds, hafter]
    | cons c cs =>
        rw [hafter] at hline
        have hc : c ≠ '\n' := fun h => hline (h ▸ List.mem_cons_self)
        simp [Anchor.holds, hafter, hc]

theorem Near.not_mem_after {st st' : State} (h : Near word st st') (hline : '\n' ∉ word) :
    '\n' ∉ st.after := fun hmem => hline (h.word_eq ▸ List.mem_append_right _ hmem)

theorem Expr.same_endsLine (hline : '\n' ∉ word) {a a' : Anchor} (h : a.EndsLine) (h' : a'.EndsLine) :
    Expr.Same word (.anchor a) (.anchor a') := by
  refine Expr.same_anchor fun st st' hnear => ?_
  have hst := hnear.not_mem_after hline
  rw [h.holds_eq hst, h'.holds_eq (hnear.after_eq.symm ▸ hst), hnear.after_eq]

/-! ### Repetitions -/

section

variable {once once' : State → List State} (h : SameWays word (fun _ => True) once once')

include h

theorem sameWays_roundWays (n : Nat) :
    SameWays word (fun _ => True) (roundWays once n) (roundWays once' n) := by
  induction n with
  | zero => exact fun _ _ _ hnear => hnear.forall₂_singleton
  | succ n ih =>
      intro st st' hst hnear
      exact List.rel_flatMap (h hst hnear) fun _ _ hnear => ih trivial hnear

theorem sameWays_moreWays (lazy : Bool) (budget : Nat) (most last : Option Nat) :
    SameWays word (fun _ => True) (moreWays once lazy budget most last)
      (moreWays once' lazy budget most last) := by
  induction budget generalizing most last with
  | zero => exact fun _ _ _ hnear => hnear.forall₂_singleton
  | succ budget ih =>
      intro st st' hst hnear
      rw [moreWays, moreWays, hnear.after_eq]
      split
      · exact hnear.forall₂_singleton
      · have hagain := List.rel_flatMap (h hst hnear) fun _ _ hnear =>
          ih (most.map (· - 1)) (some st.after.length) trivial hnear
        cases lazy with
        | true => exact .cons hnear hagain
        | false => exact List.rel_append hagain hnear.forall₂_singleton

end

theorem Expr.Same.rep {e e' : Expr} (h : Expr.Same word e e') (min : Nat) (max : Option Nat)
    (lazy : Bool) : Expr.Same word (.rep e min max lazy) (.rep e' min max lazy) := by
  intro st st' hst hnear
  rw [Expr.ways, Expr.ways]
  refine List.rel_flatMap (sameWays_roundWays h min hst hnear) fun mid mid' hmid => ?_
  rw [hmid.after_eq]
  exact sameWays_moreWays h lazy _ _ _ trivial hmid

/-! ### Sequences and choices -/

theorem sameWays_waysAll {es es' : List Expr} (h : List.Forall₂ (Expr.Same word) es es') :
    SameWays word (fun _ => True) (waysAll es) (waysAll es') := by
  induction h with
  | nil => exact fun _ _ _ hnear => hnear.forall₂_singleton
  | cons he _ ih =>
      intro st st' hst hnear
      exact List.rel_flatMap (he hst hnear) fun _ _ hnear => ih trivial hnear

/-- The ways through a choice are those through its alternatives, the first alternative first. -/
theorem Expr.ways_altAll {es : List Expr} (h : es ≠ []) (st : State) :
    (Expr.altAll es).ways st = es.flatMap (·.ways st) := by
  induction es with
  | nil => exact absurd rfl h
  | cons e es ih =>
      cases es with
      | nil => simp [Expr.altAll]
      | cons f fs =>
          rw [Expr.altAll, Expr.ways, ih (List.cons_ne_nil f fs), List.flatMap_cons]
          all_goals simp

theorem sameWays_altAll {P : State → Prop} {es es' : List Expr}
    (h : List.Forall₂ (fun e e' => SameWays word P e.ways e'.ways) es es') (hne : es ≠ []) :
    SameWays word P (Expr.altAll es).ways (Expr.altAll es').ways := by
  intro st st' hst hnear
  have hne' : es' ≠ [] := by
    rintro rfl
    exact hne (List.forall₂_nil_right_iff.mp h)
  rw [Expr.ways_altAll hne, Expr.ways_altAll hne']
  exact List.rel_flatMap h fun _ _ hways => hways hst hnear

/-! ### The whole word -/

/-- Of two lists related member by member, both have a member with a property or none. -/
theorem exists_iff_of_forall₂ {α β : Type} {R : α → β → Prop} {p : α → Prop} {q : β → Prop}
    (hpq : ∀ a b, R a b → (p a ↔ q b)) {l : List α} {l' : List β} (h : List.Forall₂ R l l') :
    (∃ a ∈ l, p a) ↔ ∃ b ∈ l', q b := by
  induction h with
  | nil => simp
  | cons hab _ ih => simp [hpq _ _ hab, ih]

/-- **Taking the whole word**: of two that have the same ways both take what is left of it, or
neither does. -/
theorem SameWays.exists_whole_iff {P : State → Prop} {ways ways' : State → List State}
    (h : SameWays word P ways ways') {st st' : State} (hst : P st) (hnear : Near word st st') :
    (∃ last ∈ ways st, last.after = []) ↔ ∃ last ∈ ways' st', last.after = [] :=
  exists_iff_of_forall₂ (fun _ _ hnear => by rw [hnear.after_eq]) (h hst hnear)

end

end Switchboard.Pattern
