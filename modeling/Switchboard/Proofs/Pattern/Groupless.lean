import Mathlib.Data.List.Forall2
import Switchboard.Proofs.Pattern.Ways

/-!
# Expressions without Groups

What a group captures is not looked at while an expression is matched, unless some part of the
expression refers back to it. `Expr.Sheds` relates an expression to the one that is left when its
groups are taken away and their bodies stay. There is no case for a reference, so that only
expressions without references are related to another one.

Both go the same ways. They end in the same places, and those of the second one have captured
nothing (`State.bare`). Hence both are found at the same places of a text, with the same
text. They also have the same width, which is what a look-behind depends on.

## Main results

* `Expr.Sheds.ways_eq`: the ways are the same, but for what is captured.
* `Expr.Sheds.search_eq`: a search finds the same text at the same place.
* `Expr.sheds_seqAll`, `Expr.sheds_altAll`: sequences and choices.
-/

namespace Switchboard.Pattern

/-- The place without what has been captured on the way to it. -/
def State.bare (st : State) : State := { st with captures := [] }

@[simp] theorem State.bare_after (st : State) : st.bare.after = st.after := rfl

/-- The match without what its groups captured. -/
def Match.bare (m : Match) : Match := { m with captures := [] }

/-- The second expression is the first one without its groups, and neither refers back to any. -/
inductive Expr.Sheds : Expr → Expr → Prop where
  | empty : Sheds .empty .empty
  | set (s : CharSet) : Sheds (.set s) (.set s)
  | anchor (a : Anchor) : Sheds (.anchor a) (.anchor a)
  | group (i : Nat) {e e' : Expr} (h : Sheds e e') : Sheds (.group i e) e'
  | seq {a a' b b' : Expr} (ha : Sheds a a') (hb : Sheds b b') : Sheds (.seq a b) (.seq a' b')
  | alt {a a' b b' : Expr} (ha : Sheds a a') (hb : Sheds b b') : Sheds (.alt a b) (.alt a' b')
  | look (side : Side) (negated : Bool) {e e' : Expr} (h : Sheds e e') :
      Sheds (.look side negated e) (.look side negated e')
  | rep (min : Nat) (max : Option Nat) (lazy : Bool) {e e' : Expr} (h : Sheds e e') :
      Sheds (.rep e min max lazy) (.rep e' min max lazy)

/-! ### Width -/

/-- Groups do not count for the width. Nor do the widths that are assumed for references matter. -/
theorem Expr.Sheds.width_eq {e e' : Expr} (h : e.Sheds e') (groups groups' : Nat → Width) :
    e'.width groups' = e.width groups := by
  induction h with
  | empty | set | anchor | look => rfl
  | group i _ ih => exact ih
  | seq _ _ iha ihb | alt _ _ iha ihb => rw [width, width, iha, ihb]
  | rep min max lazy _ ih => rw [width, width, ih]

/-! ### Ways -/

theorem State.bare_back? (st : State) (n : Nat) :
    st.bare.back? n = (st.back? n).map State.bare := by
  by_cases hn : n ≤ st.before.length
  · rw [State.back?, State.back?, if_pos hn]
    exact if_pos hn
  · rw [State.back?, State.back?, if_neg hn]
    exact if_neg hn

theorem Anchor.holds_bare (a : Anchor) (st : State) : a.holds st.bare = a.holds st := by
  cases a <;> rfl

section

variable {once once' : State → List State}
  (h : ∀ st, once' st.bare = (once st).map State.bare)

include h

/-- One after the other is the same again. -/
theorem flatMap_bare (sts : List State) :
    (sts.map State.bare).flatMap once' = (sts.flatMap once).map State.bare := by
  rw [List.flatMap_map, List.map_flatMap]
  simp only [h]

theorem roundWays_bare (n : Nat) (st : State) :
    roundWays once' n st.bare = (roundWays once n st).map State.bare := by
  induction n generalizing st with
  | zero => rfl
  | succ n ih => rw [roundWays, roundWays, h, flatMap_bare ih]

theorem moreWays_bare (lazy : Bool) (budget : Nat) (most last : Option Nat) (st : State) :
    moreWays once' lazy budget most last st.bare =
      (moreWays once lazy budget most last st).map State.bare := by
  induction budget generalizing most last st with
  | zero => rfl
  | succ budget ih =>
      have hagain := flatMap_bare (ih (most.map (· - 1)) (some st.after.length)) (once st)
      rw [moreWays, moreWays, State.bare_after, h, hagain]
      split
      · rfl
      · cases lazy with
        | true => rfl
        | false => simp

end

/-- **The ways are the same**, in the same order, but for what is captured on them. -/
theorem Expr.Sheds.ways_eq {e e' : Expr} (h : e.Sheds e') (st : State) :
    e'.ways st.bare = (e.ways st).map State.bare := by
  induction h generalizing st with
  | empty => rfl
  | set s =>
      rw [ways, ways, State.bare_after]
      cases st.after with
      | nil => rfl
      | cons c cs => simp only [apply_ite (List.map State.bare)]; rfl
  | anchor a =>
      rw [ways, ways, a.holds_bare]
      split <;> rfl
  | group i _ ih =>
      rw [ways, ih, List.map_map]
      rfl
  | seq _ _ iha ihb => rw [ways, ways, iha, flatMap_bare ihb]
  | alt _ _ iha ihb => rw [ways, ways, iha, ihb, List.map_append]
  | look side negated _ ih =>
      rename_i e e' _
      -- the text inspected is the same, and of the ways through it only the first is looked at
      have hfound : ∀ inspected : Option State,
          (inspected.map State.bare).bind (fun st => (e'.ways st).head?) =
            (inspected.bind fun st => (e.ways st).head?).map State.bare := by
        intro inspected
        cases inspected with
        | none => rfl
        | some st => simp [ih]
      rw [ways.eq_def, ways.eq_def]
      cases side with
      | ahead =>
          have hhead := hfound (some st)
          simp only [Option.map_some] at hhead
          simp only [hhead]
          cases (some st).bind fun st => (e.ways st).head? <;> cases negated <;> rfl
      | behind n =>
          simp only [State.bare_back?, hfound]
          cases (st.back? n).bind fun st => (e.ways st).head? <;> cases negated <;> rfl
  | rep min max lazy _ ih =>
      rw [ways, ways, roundWays_bare ih]
      refine flatMap_bare (fun st => ?_) _
      exact moreWays_bare ih lazy _ _ _ st

/-! ### Matches -/

theorem Expr.Sheds.matchAt_eq {e e' : Expr} (h : e.Sheds e') (before after : List Char)
    {accept : State → Bool} (haccept : ∀ st : State, accept st.bare = accept st) :
    e'.matchAt before after accept = (e.matchAt before after accept).map Match.bare := by
  have hways : e'.ways { before, after } = (e.ways { before, after }).map State.bare :=
    h.ways_eq { before, after }
  have hcomp : accept ∘ State.bare = accept := funext haccept
  rw [Expr.matchAt_eq, Expr.matchAt_eq, hways, List.find?_map, hcomp, Option.map_map, Option.map_map]
  rfl

/-- **A search finds the same**: the same text at the same place, or nothing. -/
theorem Expr.Sheds.search_eq {e e' : Expr} (h : e.Sheds e') (text : List Char) :
    e'.search text = (e.search text).map Match.bare := by
  have hall : ∀ before after,
      e'.searchFrom before after = (e.searchFrom before after).map Match.bare := by
    intro before after
    induction after generalizing before with
    | nil => exact h.matchAt_eq before [] fun _ => rfl
    | cons c cs ih =>
        rw [searchFrom, searchFrom, h.matchAt_eq before (c :: cs) fun _ => rfl, ih]
        cases e.matchAt before (c :: cs) fun _ => true <;> rfl
  exact hall [] text

/-! ### Sequences and choices -/

theorem Expr.sheds_seqAll {es es' : List Expr} (h : List.Forall₂ Sheds es es') :
    (seqAll es).Sheds (seqAll es') := by
  induction h with
  | nil => exact .empty
  | cons he hes ih =>
      cases hes with
      | nil => exact he
      | cons => exact .seq he ih

theorem Expr.sheds_altAll {es es' : List Expr} (h : List.Forall₂ Sheds es es') :
    (altAll es).Sheds (altAll es') := by
  induction h with
  | nil => exact .empty
  | cons he hes ih =>
      cases hes with
      | nil => exact he
      | cons => exact .alt he ih

end Switchboard.Pattern
