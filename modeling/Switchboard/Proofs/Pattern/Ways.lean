import Switchboard.Pattern.Match

/-!
# All Ways Through an Expression

`Expr.run` looks for the first way through an expression that a continuation accepts, and forgets
the ways that it has tried. `Expr.ways` lists them all instead, in the order in which they are
tried, as the states that they end in. There is no continuation in it, so that a sequence is a
`flatMap` and a choice an append, and statements about matching become statements about lists.

The two agree: running is finding in the list (`Expr.run_eq_findSome?_ways`). Every way only moves
forward in the text (`State.Leads`, `Expr.leads_of_mem_ways`). A search that is to find a whole
text therefore depends on the first way from its start alone: `Expr.search_of_head?_ways` when
there is one, and `Expr.length_lt_of_search` when there is none.

## Main results

* `Expr.run_eq_findSome?_ways`: running an expression finds the first way that is accepted.
* `Expr.leads_of_mem_ways`: a way reads some text and ends behind it.
* `Expr.search_whole_iff`: when a search finds the whole text.
-/

namespace Switchboard.Pattern

/-- All ways through so many rounds. -/
def roundWays (once : State → List State) : Nat → State → List State
  | 0, st => [st]
  | n + 1, st => (once st).flatMap (roundWays once n)

/-- All ways through further rounds, with the bounds of `moreRounds`. -/
def moreWays (once : State → List State) (lazy : Bool) :
    Nat → Option Nat → Option Nat → State → List State
  | 0, _, _, st => [st]
  | budget + 1, most, last, st =>
      if most == some 0 || last == some st.after.length then [st]
      else
        let again := (once st).flatMap
          (moreWays once lazy budget (most.map (· - 1)) (some st.after.length))
        if lazy then st :: again else again ++ [st]

/-- All ways through an expression from a place, the ones tried first in front. -/
def Expr.ways : Expr → State → List State
  | .empty, st => [st]
  | .set s, st =>
      match st.after with
      | c :: _ => if s.contains c then [st.advance 1] else []
      | [] => []
  | .seq a b, st => (a.ways st).flatMap fun st => b.ways st
  | .alt a b, st => a.ways st ++ b.ways st
  | .group i e, st => (e.ways st).map fun st' => st'.capture i st
  | .backref i letters, st =>
      match st.captured? i with
      | some text => if startsWith letters text st.after then [st.advance text.length] else []
      | none => []
  | .anchor a, st => if a.holds st then [st] else []
  | .look side negated e, st =>
      let inspected := match side with
        | .ahead => some st
        | .behind n => st.back? n
      match inspected.bind fun st => (e.ways st).head? with
      | some found => if negated then [] else [{ st with captures := found.captures }]
      | none => if negated then [st] else []
  | .rep e min max lazy, st =>
      (roundWays (fun st => e.ways st) min st).flatMap fun st =>
        moreWays (fun st => e.ways st) lazy (st.after.length + 1) (max.map (· - min)) none st

/-! ### Running finds the first way -/

/-- Finding in the lists of a list is finding in their concatenation. -/
theorem findSome?_flatMap {α β γ : Type} (l : List α) (f : α → List β) (k : β → Option γ) :
    (l.flatMap f).findSome? k = l.findSome? fun a => (f a).findSome? k := by
  induction l with
  | nil => rfl
  | cons a l ih =>
      rw [List.flatMap_cons, List.findSome?_append, List.findSome?_cons, ih]
      cases (f a).findSome? k <;> rfl

section

variable {once : Runner} {ways : State → List State}
  (h : ∀ st k, once st k = (ways st).findSome? k)

include h

/-- Rounds find the first way through so many rounds. -/
theorem rounds_eq_findSome? (n : Nat) (st : State) (k : State → Option State) :
    rounds once n st k = (roundWays ways n st).findSome? k := by
  induction n generalizing st with
  | zero => cases hk : k st <;> simp [rounds, roundWays, hk]
  | succ n ih =>
      rw [rounds, roundWays, h, findSome?_flatMap]
      congr 1
      funext st'
      exact ih st'

/-- Further rounds find the first way through further rounds. -/
theorem moreRounds_eq_findSome? (lazy : Bool) (budget : Nat) (most last : Option Nat) (st : State)
    (k : State → Option State) :
    moreRounds once lazy budget most last st k =
      (moreWays ways lazy budget most last st).findSome? k := by
  have hone : ∀ st : State, [st].findSome? k = k st := by
    intro st
    cases hk : k st <;> simp [hk]
  induction budget generalizing most last st with
  | zero => rw [moreRounds, moreWays, hone]
  | succ budget ih =>
      have hagain : (once st fun st' =>
            moreRounds once lazy budget (most.map (· - 1)) (some st.after.length) st' k) =
          ((ways st).flatMap
            (moreWays ways lazy budget (most.map (· - 1)) (some st.after.length))).findSome? k := by
        rw [h, findSome?_flatMap]
        congr 1
        funext st'
        exact ih _ _ st'
      rw [moreRounds, moreWays]
      by_cases hstop : (most == some 0 || last == some st.after.length) = true
      · rw [if_pos hstop, if_pos hstop, hone]
      · rw [if_neg hstop, if_neg hstop, hagain]
        cases lazy with
        | true =>
            simp only [if_true, List.findSome?_cons]
            cases k st <;> rfl
        | false =>
            simp only [Bool.false_eq_true, if_false, List.findSome?_append, hone]
            cases ((ways st).flatMap
              (moreWays ways false budget (most.map (· - 1)) (some st.after.length))).findSome? k <;>
              rfl

end

/-- **Running finds the first way.** What running an expression answers is the answer of the
continuation to the first way that it accepts. -/
theorem Expr.run_eq_findSome?_ways (e : Expr) (st : State) (k : State → Option State) :
    e.run st k = (e.ways st).findSome? k := by
  have hone : ∀ (st : State) (k : State → Option State), [st].findSome? k = k st := by
    intro st k
    cases hk : k st <;> simp [hk]
  have hif : ∀ (b : Bool) (st : State) (k : State → Option State),
      (if b then [st] else []).findSome? k = if b then k st else none := by
    intro b st k
    cases b
    · rfl
    · exact hone st k
  induction e generalizing st k with
  | empty => exact (hone st k).symm
  | set s =>
      rw [Expr.run, Expr.ways]
      cases st.after with
      | nil => rfl
      | cons c cs => exact (hif _ _ k).symm
  | seq a b iha ihb =>
      rw [Expr.run, Expr.ways, iha, findSome?_flatMap]
      congr 1
      funext st'
      exact ihb st' k
  | alt a b iha ihb =>
      rw [Expr.run, Expr.ways, List.findSome?_append, iha, ihb]
      cases (a.ways st).findSome? k <;> rfl
  | group i e ih =>
      rw [Expr.run, Expr.ways, ih, List.findSome?_map]
      rfl
  | backref i letters =>
      rw [Expr.run, Expr.ways]
      cases st.captured? i with
      | none => rfl
      | some text => exact (hif _ _ k).symm
  | anchor a =>
      rw [Expr.run, Expr.ways]
      exact (hif _ _ k).symm
  | look side negated e ih =>
      have hinner : ∀ st, e.run st some = (e.ways st).head? := by
        intro st
        rw [ih]
        cases e.ways st <;> rfl
      rw [Expr.run.eq_def, Expr.ways.eq_def]
      simp only [hinner]
      generalize Option.bind _ (fun st => (e.ways st).head?) = found
      cases found with
      | some found =>
          cases negated
          · exact (hone _ k).symm
          · rfl
      | none =>
          cases negated
          · rfl
          · exact (hone _ k).symm
  | rep e min max lazy ih =>
      rw [Expr.run, Expr.ways, rounds_eq_findSome? ih, findSome?_flatMap]
      congr 1
      funext st'
      exact moreRounds_eq_findSome? ih lazy _ _ _ st' k

/-! ### Ways move forward -/

/-- From one state some text is read on the way to another. -/
def State.Leads (st st' : State) : Prop :=
  ∃ read, st.after = read ++ st'.after ∧ st'.before = read.reverse ++ st.before

theorem State.Leads.refl (st : State) : st.Leads st := ⟨[], rfl, rfl⟩

theorem State.Leads.trans {a b c : State} (hab : a.Leads b) (hbc : b.Leads c) : a.Leads c := by
  obtain ⟨first, hafter, hbefore⟩ := hab
  obtain ⟨second, hafter', hbefore'⟩ := hbc
  exact ⟨first ++ second, by rw [hafter, hafter', List.append_assoc],
    by rw [hbefore', hbefore, List.reverse_append, List.append_assoc]⟩

theorem State.leads_advance (st : State) (n : Nat) : st.Leads (st.advance n) :=
  ⟨st.after.take n, (List.take_append_drop n st.after).symm, rfl⟩

theorem State.Leads.length_le {st st' : State} (h : st.Leads st') :
    st'.after.length ≤ st.after.length := by
  obtain ⟨read, hafter, -⟩ := h
  rw [hafter, List.length_append]
  omega

section

variable {once : State → List State} (h : ∀ st, ∀ st' ∈ once st, st.Leads st')

include h

/-- Rounds move forward when each of them does. -/
theorem leads_of_mem_roundWays {n : Nat} {st st' : State} (hst' : st' ∈ roundWays once n st) :
    st.Leads st' := by
  induction n generalizing st with
  | zero => exact List.mem_singleton.mp hst' ▸ State.Leads.refl st
  | succ n ih =>
      obtain ⟨mid, hmid, hrest⟩ := List.mem_flatMap.mp hst'
      exact (h st mid hmid).trans (ih hrest)

/-- Further rounds move forward when each of them does. -/
theorem leads_of_mem_moreWays {lazy : Bool} {budget : Nat} {most last : Option Nat}
    {st st' : State} (hst' : st' ∈ moreWays once lazy budget most last st) : st.Leads st' := by
  induction budget generalizing most last st with
  | zero => exact List.mem_singleton.mp hst' ▸ State.Leads.refl st
  | succ budget ih =>
      have hagain : st' ∈ (once st).flatMap
          (moreWays once lazy budget (most.map (· - 1)) (some st.after.length)) →
          st.Leads st' := by
        intro hmem
        obtain ⟨mid, hmid, hrest⟩ := List.mem_flatMap.mp hmem
        exact (h st mid hmid).trans (ih hrest)
      rw [moreWays] at hst'
      split at hst'
      · exact List.mem_singleton.mp hst' ▸ State.Leads.refl st
      · cases lazy with
        | true =>
            rcases List.mem_cons.mp hst' with rfl | hmem
            · exact State.Leads.refl st'
            · exact hagain hmem
        | false =>
            rcases List.mem_append.mp hst' with hmem | hmem
            · exact hagain hmem
            · exact List.mem_singleton.mp hmem ▸ State.Leads.refl st

end

/-- **Ways move forward**: a way reads some text and ends behind it. -/
theorem Expr.leads_of_mem_ways {e : Expr} {st st' : State} (h : st' ∈ e.ways st) :
    st.Leads st' := by
  have hif : ∀ {b : Bool} {st st₁ st₂ : State}, st₂ ∈ (if b then [st₁] else []) →
      st.Leads st₁ → st.Leads st₂ := by
    intro b st st₁ st₂ hmem hleads
    cases b with
    | true => exact List.mem_singleton.mp hmem ▸ hleads
    | false => cases hmem
  induction e generalizing st st' with
  | empty => exact List.mem_singleton.mp h ▸ State.Leads.refl st
  | set s =>
      rw [Expr.ways] at h
      split at h
      · exact hif h (st.leads_advance 1)
      · cases h
  | seq a b iha ihb =>
      obtain ⟨mid, hmid, hrest⟩ := List.mem_flatMap.mp h
      exact (iha hmid).trans (ihb hrest)
  | alt a b iha ihb =>
      rcases List.mem_append.mp h with hmem | hmem
      · exact iha hmem
      · exact ihb hmem
  | group i e ih =>
      obtain ⟨inner, hinner, rfl⟩ := List.mem_map.mp h
      exact (ih hinner : st.Leads inner)
  | backref i letters =>
      rw [Expr.ways] at h
      split at h
      · exact hif h (st.leads_advance _)
      · cases h
  | anchor a => exact hif h (State.Leads.refl st)
  | look side negated e ih =>
      rw [Expr.ways.eq_def] at h
      simp only at h
      split at h
      · cases negated with
        | true => cases h
        | false => exact List.mem_singleton.mp h ▸ ⟨[], rfl, rfl⟩
      · cases negated with
        | true => exact List.mem_singleton.mp h ▸ State.Leads.refl st
        | false => cases h
  | rep e min max lazy ih =>
      obtain ⟨mid, hmid, hrest⟩ := List.mem_flatMap.mp h
      have honce : ∀ st, ∀ st' ∈ e.ways st, st.Leads st' := fun _ _ hmem => ih hmem
      exact (leads_of_mem_roundWays honce hmid).trans (leads_of_mem_moreWays honce hrest)

/-! ### Searching -/

/-- The place at the start of a text. -/
def State.start (text : List Char) : State := { before := [], after := text }

/-- A match at a place is the first way that is accepted. -/
theorem Expr.matchAt_eq (e : Expr) (before after : List Char) (accept : State → Bool) :
    e.matchAt before after accept =
      ((e.ways { before, after }).find? accept).map fun st =>
        { before := before.reverse, text := after.take (after.length - st.after.length),
          captures := st.captures } := by
  have hguard : (fun st => if accept st then some st else none) = Option.guard accept := by
    funext st
    cases haccept : accept st <;> simp [Option.guard, haccept]
  rw [matchAt, run_eq_findSome?_ways, hguard, List.findSome?_guard]

/-- A search from a place finds no more than the text from there. -/
theorem Expr.length_le_of_searchFrom {e : Expr} {before after : List Char} {m : Match}
    (h : e.searchFrom before after = some m) : m.text.length ≤ after.length := by
  have hmatch : ∀ {before after m}, (e.matchAt before after fun _ => true) = some m →
      m.text.length ≤ after.length := by
    intro before after m hm
    rw [matchAt_eq] at hm
    obtain ⟨st, -, rfl⟩ := Option.map_eq_some_iff.mp hm
    simp only [List.length_take]
    omega
  induction after generalizing before with
  | nil => exact hmatch h
  | cons c cs ih =>
      rw [searchFrom] at h
      split at h
      case h_1 found hfound => exact hmatch (hfound.trans h)
      case h_2 => exact Nat.le_succ_of_le (ih h)

/-- A search stops at the start of the text when there is a way from there. -/
theorem Expr.search_of_head?_ways {e : Expr} {text : List Char} {st : State}
    (h : (e.ways (.start text)).head? = some st) :
    e.search text = some
      { before := [], text := text.take (text.length - st.after.length),
        captures := st.captures } := by
  have hfind : (e.ways { before := [], after := text }).find? (fun _ => true) = some st := by
    rw [← h]
    unfold State.start
    cases e.ways { before := [], after := text } <;> rfl
  have hmatch := e.matchAt_eq [] text fun _ => true
  rw [hfind] at hmatch
  cases text with
  | nil => exact hmatch
  | cons c cs =>
      rw [search, searchFrom, hmatch]
      rfl

/-- A search that has to go on from the start of the text does not find the whole of it. -/
theorem Expr.length_lt_of_search {e : Expr} {text : List Char} {m : Match}
    (hnone : e.ways (.start text) = []) (h : e.search text = some m) :
    m.text.length < text.length := by
  have hmatch : (e.matchAt [] text fun _ => true) = none := by
    unfold State.start at hnone
    rw [matchAt_eq, hnone]
    rfl
  cases text with
  | nil =>
      rw [search, searchFrom, hmatch] at h
      cases h
  | cons c cs =>
      rw [search, searchFrom, hmatch] at h
      exact Nat.lt_succ_of_le (length_le_of_searchFrom h)

/-- **When a search finds the whole text**: exactly when the first way from its start ends at its
end, and then the captures are those of this way. -/
theorem Expr.search_whole_iff {e : Expr} {text : List Char} {m : Match} :
    (e.search text = some m ∧ m.text = text) ↔
      ∃ st, (e.ways (.start text)).head? = some st ∧ st.after = [] ∧
        m = { before := [], text, captures := st.captures } := by
  constructor
  · rintro ⟨hsearch, htext⟩
    cases hways : e.ways (.start text) with
    | nil =>
        have hlt := length_lt_of_search hways hsearch
        rw [htext] at hlt
        omega
    | cons st rest =>
        have hhead : (e.ways (.start text)).head? = some st := by rw [hways]; rfl
        have hle : st.after.length ≤ text.length :=
          (leads_of_mem_ways (hways ▸ List.mem_cons_self)).length_le
        rw [search_of_head?_ways hhead] at hsearch
        obtain rfl := Option.some.inj hsearch
        have hlength := congrArg List.length htext
        simp only [List.length_take] at hlength
        have hafter : st.after = [] := List.eq_nil_of_length_eq_zero (by omega)
        exact ⟨st, rfl, hafter, by simp [hafter]⟩
  · rintro ⟨st, hhead, hafter, rfl⟩
    refine ⟨?_, rfl⟩
    rw [search_of_head?_ways hhead, hafter]
    simp

end Switchboard.Pattern
