import Mathlib.Data.List.Basic
import Switchboard.Proofs.Pattern.Ways
import Switchboard.Proofs.Text.Words

/-!
# Sequences, Literal Text and Greedy Runs

The ways through the expressions that a template is made of: a sequence (`waysAll`), a literal
text (`waysAll_literal`), a greedy run of characters of one kind (`Expr.ways_plus_set`), and a
part that may be left out (`Expr.ways_optional`).

A greedy run can give characters back, one by one, and each time the rest of the pattern is tried
again. When the rest cannot start with a character of the run (`Stops`), none of this helps: only
the longest run has a way on. When a literal text follows inside the run, as a suffix does in
`:name?`, one way of dividing the run is left. These are the two places where backtracking is
shown to be of no use.

## Main results

* `flatMap_plus_of_stops`: a run gives nothing back to a rest that cannot start inside it.
* `flatMap_value_of_divides`: a suffix divides a run in one way.
-/

namespace Switchboard.Pattern

/-- All ways through expressions one after the other. -/
def waysAll : List Expr → State → List State
  | [], st => [st]
  | e :: es, st => (e.ways st).flatMap (waysAll es)

/-- There is no way from a place where a character of the kind comes next. -/
def Stops (p : Char → Bool) (ways : State → List State) : Prop :=
  ∀ st c rest, st.after = c :: rest → p c = true → ways st = []

/-! ### Sequences -/

theorem waysAll_append (es fs : List Expr) (st : State) :
    waysAll (es ++ fs) st = (waysAll es st).flatMap (waysAll fs) := by
  induction es generalizing st with
  | nil => simp [waysAll]
  | cons e es ih =>
      rw [List.cons_append, waysAll, waysAll, List.flatMap_assoc]
      congr 1
      funext st'
      exact ih st'

theorem waysAll_singleton (e : Expr) (st : State) : waysAll [e] st = e.ways st := by
  have hnil : waysAll [] = fun st => [st] := by
    funext st'
    rfl
  rw [waysAll, hnil, List.flatMap_singleton']

/-- The ways through a sequence are those through its members, one after the other. -/
theorem Expr.ways_seqAll (es : List Expr) (st : State) :
    (Expr.seqAll es).ways st = waysAll es st := by
  induction es generalizing st with
  | nil => rfl
  | cons e es ih =>
      cases es with
      | nil => exact (waysAll_singleton e st).symm
      | cons f fs =>
          rw [Expr.seqAll, Expr.ways, waysAll]
          · congr 1
            funext st'
            exact ih st'
          · simp

/-! ### Places -/

@[simp] theorem State.advance_zero (st : State) : st.advance 0 = st := by
  simp [State.advance]

@[simp] theorem State.advance_advance (st : State) (m n : Nat) :
    (st.advance m).advance n = st.advance (m + n) := by
  simp [State.advance, List.take_add, List.drop_drop]

/-- Advancing over a text leaves the rest. -/
@[simp] theorem State.advance_append (before cs rest : List Char)
    (captures : List (Nat × List Char)) :
    ({ before, after := cs ++ rest, captures } : State).advance cs.length =
      { before := cs.reverse ++ before, after := rest, captures } := by
  simp [State.advance]

/-! ### Literal text -/

/-- A literal text has one way, over itself. -/
theorem waysAll_literal (cs : List Char) (st : State) :
    waysAll (cs.map fun c => .set (.only c)) st =
      if cs <+: st.after then [st.advance cs.length] else [] := by
  induction cs generalizing st with
  | nil => simp [waysAll]
  | cons c cs ih =>
      rw [List.map_cons, waysAll, Expr.ways]
      cases hafter : st.after with
      | nil => simp
      | cons d rest =>
          by_cases hc : d = c
          · subst hc
            have hrest : (st.advance 1).after = rest := by simp [State.advance, hafter]
            simp [ih, hrest, List.cons_prefix_cons, Nat.add_comm]
          · simp [hc, List.cons_prefix_cons, Ne.symm hc]

/-! ### Greedy runs -/

/-- The rounds of a greedy run of characters, from the longest run to none at all. -/
theorem moreWays_set (s : CharSet) {budget : Nat} {last : Option Nat} {st : State}
    (hbudget : st.after.length < budget) (hlast : last ≠ some st.after.length) :
    moreWays (fun st => (Expr.set s).ways st) false budget none last st =
      (List.range ((st.after.takeWhile s.contains).length + 1)).reverse.map st.advance := by
  induction budget generalizing last st with
  | zero => omega
  | succ budget ih =>
      have hgo : ((none : Option Nat) == some 0 || last == some st.after.length) = false := by
        simpa using hlast
      rw [moreWays, hgo]
      cases hafter : st.after with
      | nil => simp [Expr.ways, hafter]
      | cons c cs =>
          by_cases hc : s.contains c = true
          · have hrest : (st.advance 1).after = cs := by simp [State.advance, hafter]
            have hnext := @ih (some st.after.length) (st.advance 1)
              (by rw [hrest]; rw [hafter, List.length_cons] at hbudget; omega)
              (by rw [hrest, hafter, List.length_cons]; simp)
            rw [hrest, hafter] at hnext
            have honce : (Expr.set s).ways st = [st.advance 1] := by
              simp [Expr.ways, hafter, hc]
            rw [honce, List.flatMap_singleton, Option.map_none, hnext,
              List.takeWhile_cons_of_pos hc, List.length_cons]
            simp only [Bool.false_eq_true, if_false]
            rw [List.range_succ_eq_map (n := (cs.takeWhile s.contains).length + 1),
              List.reverse_cons, List.map_append, ← List.map_reverse, List.map_map]
            congr 1
            apply List.map_congr_left
            intro k _
            simp [Nat.add_comm]
          · simp [Expr.ways, hafter, hc]

/-- A greedy run of at least one character: from the longest run to a single character. -/
theorem Expr.ways_plus_set (s : CharSet) (st : State) :
    (Expr.rep (.set s) 1 none false).ways st =
      (List.range (st.after.takeWhile s.contains).length).reverse.map fun k =>
        st.advance (k + 1) := by
  have hround : roundWays (fun st => (Expr.set s).ways st) 1 st = (Expr.set s).ways st := by
    have hzero : roundWays (fun st => (Expr.set s).ways st) 0 = fun st => [st] := by
      funext st'
      rfl
    rw [roundWays, hzero, List.flatMap_singleton']
  rw [Expr.ways, hround, Option.map_none, Expr.ways]
  cases hafter : st.after with
  | nil => rfl
  | cons c cs =>
      by_cases hc : s.contains c = true
      · have hrest : (st.advance 1).after = cs := by simp [State.advance, hafter]
        simp only [hc, if_true, List.flatMap_singleton, List.takeWhile_cons_of_pos,
          List.length_cons]
        rw [moreWays_set s (Nat.lt_succ_self _) (by simp), hrest]
        apply List.map_congr_left
        intro k _
        simp [Nat.add_comm]
      · simp [hc]

/-- Each way through a greedy run passes some characters of the run, at least one. -/
theorem Expr.exists_run_of_mem_ways {s : CharSet} {st st' : State}
    (h : st' ∈ (Expr.rep (.set s) 1 none false).ways st) :
    ∃ run, run ≠ [] ∧ (∀ c ∈ run, s.contains c = true) ∧ st.after = run ++ st'.after ∧
      st' = st.advance run.length := by
  rw [ways_plus_set] at h
  obtain ⟨k, hk, rfl⟩ := List.mem_map.mp h
  have hlt : k < (st.after.takeWhile s.contains).length := by simpa using hk
  have hle : (st.after.takeWhile s.contains).length ≤ st.after.length :=
    (List.takeWhile_sublist _).length_le
  have hlength : (st.after.take (k + 1)).length = k + 1 := by
    rw [List.length_take]
    omega
  refine ⟨st.after.take (k + 1), ?_, ?_, (List.take_append_drop _ _).symm, by rw [hlength]⟩
  · rw [← List.length_pos_iff, hlength]
    exact Nat.succ_pos k
  · intro c hc
    have hfront : st.after.take (k + 1) <+: st.after.takeWhile s.contains :=
      List.prefix_of_prefix_length_le (List.take_prefix _ _) (List.takeWhile_prefix _)
        (by rw [hlength]; exact hlt)
    exact List.mem_takeWhile_imp (hfront.subset hc)

/-- A part that may be left out: first the ways with it, then the one without. -/
theorem Expr.ways_optional (e : Expr) (st : State) :
    (Expr.rep e 0 (some 1) false).ways st = e.ways st ++ [st] := by
  have hnone : moreWays (fun st => e.ways st) false st.after.length (some 0)
      (some st.after.length) = fun st => [st] := by
    funext st'
    cases st.after.length <;> rfl
  rw [Expr.ways, roundWays, List.flatMap_singleton, moreWays]
  simp [hnone]

/-! ### Where backtracking is of no use -/

/-- Of many tries, from the last to the first, one alone has a result. -/
theorem flatMap_reverse_range {α : Type} {n j : Nat} {f : Nat → List α} (hj : j < n)
    (hf : ∀ k < n, k ≠ j → f k = []) : (List.range n).reverse.flatMap f = f j := by
  induction n with
  | zero => omega
  | succ n ih =>
      rw [List.range_succ, List.reverse_append, List.reverse_singleton, List.singleton_append,
        List.flatMap_cons]
      rcases Nat.lt_succ_iff_lt_or_eq.mp hj with hlt | rfl
      · rw [hf n (Nat.lt_succ_self n) (Nat.ne_of_gt hlt), List.nil_append]
        exact ih hlt fun k hk hne => hf k (Nat.lt_succ_of_lt hk) hne
      · have hnil : (List.range j).reverse.flatMap f = [] := by
          rw [List.flatMap_eq_nil_iff]
          intro k hk
          have hlt : k < j := by simpa using hk
          exact hf k (Nat.lt_succ_of_lt hlt) (Nat.ne_of_lt hlt)
        rw [hnil, List.append_nil]

/-- A run does not start where its kind of character does not come next. -/
theorem Expr.ways_plus_of_not_starts {s : CharSet} {st : State}
    (h : ¬ Starts s.contains st.after) : (Expr.rep (.set s) 1 none false).ways st = [] := by
  have hrun : st.after.takeWhile s.contains = [] :=
    @takeWhile_append_of_not_starts s.contains [] st.after (fun _ hc => nomatch hc) h
  rw [ways_plus_set, hrun]
  rfl

/-- **A run gives nothing back** to a rest that cannot start inside it. -/
theorem flatMap_plus_of_stops {s : CharSet} {ways : State → List State}
    (hstops : Stops s.contains ways) {before run rest : List Char}
    {captures : List (Nat × List Char)} (hne : run ≠ []) (hrun : ∀ c ∈ run, s.contains c = true)
    (hrest : ¬ Starts s.contains rest) :
    ((Expr.rep (.set s) 1 none false).ways { before, after := run ++ rest, captures }).flatMap ways
      = ways { before := run.reverse ++ before, after := rest, captures } := by
  rw [Expr.ways_plus_set]
  simp only [takeWhile_append_of_not_starts hrun hrest, List.flatMap_map]
  have hlength : 0 < run.length := List.length_pos_iff.mpr hne
  rw [flatMap_reverse_range (j := run.length - 1) (by omega)]
  · rw [Nat.sub_add_cancel hlength, State.advance_append]
  · intro k hk hne
    have hlt : k + 1 < run.length := by omega
    refine hstops _ run[k + 1] (run.drop (k + 2) ++ rest) ?_ (hrun _ (List.getElem_mem hlt))
    simp only [State.advance]
    rw [List.drop_append_of_le_length (by omega), List.drop_eq_getElem_cons hlt,
      List.cons_append]

/-! ### A suffix inside a run -/

section Suffix

variable {s : CharSet} {ways : State → List State} (hstops : Stops s.contains ways)
  {suffix rest : List Char} (hsuffix : ∀ c ∈ suffix, s.contains c = true)
  (hrest : ¬ Starts s.contains rest)

include hstops hsuffix hrest

/-- A suffix with a way on behind it is all that is left of the run. -/
theorem flatMap_literal_of_stops {tail : List Char} (htail : ∀ c ∈ tail, s.contains c = true)
    (before : List Char) (captures : List (Nat × List Char)) :
    (waysAll (suffix.map fun c => .set (.only c))
        { before, after := tail ++ rest, captures }).flatMap ways =
      if tail = suffix then ways { before := tail.reverse ++ before, after := rest, captures }
      else [] := by
  rw [waysAll_literal]
  by_cases hprefix : suffix <+: tail ++ rest
  · rw [if_pos hprefix, List.flatMap_singleton]
    obtain ⟨left, hleft⟩ := hprefix
    rcases List.append_eq_append_iff.mp hleft with ⟨more, rfl, rfl⟩ | ⟨more, rfl, rfl⟩
    · -- the suffix ends inside the run, or with it
      rw [List.append_assoc, State.advance_append]
      cases more with
      | nil => simp
      | cons c more =>
          rw [if_neg (by simp)]
          exact hstops _ c (more ++ rest) rfl (htail c (by simp))
    · -- the suffix goes on where the run has ended, so it goes on with nothing
      cases more with
      | nil =>
          rw [if_pos (by simp), List.append_nil]
          exact congrArg ways (State.advance_append before tail left captures)
      | cons c more =>
          exact absurd ⟨c, more ++ left, rfl, hsuffix c (by simp)⟩ hrest
  · rw [if_neg hprefix, if_neg]
    · rfl
    · rintro rfl
      exact hprefix (List.prefix_append _ _)

/-- The ways through a captured run with a suffix, one for each length that is tried. -/
theorem flatMap_group_plus_literal {run : List Char} (hrun : ∀ c ∈ run, s.contains c = true)
    (before : List Char) (captures : List (Nat × List Char)) (i : Nat) :
    ((Expr.group i (.rep (.set s) 1 none false)).ways
        { before, after := run ++ rest, captures }).flatMap
        (fun st => (waysAll (suffix.map fun c => .set (.only c)) st).flatMap ways) =
      (List.range run.length).reverse.flatMap fun k =>
        if run.drop (k + 1) = suffix then
          ways { before := run.reverse ++ before, after := rest,
                 captures := (i, run.take (k + 1)) :: captures }
        else [] := by
  rw [Expr.ways, Expr.ways_plus_set, List.map_map, List.flatMap_map]
  simp only [takeWhile_append_of_not_starts hrun hrest, Function.comp_def]
  apply List.flatMap_congr
  intro k hk
  have hlt : k < run.length := by simpa using hk
  have hstate : ({ before, after := run ++ rest, captures } : State).advance (k + 1) =
      { before := (run.take (k + 1)).reverse ++ before, after := run.drop (k + 1) ++ rest,
        captures } := by
    simp only [State.advance]
    rw [List.take_append_of_le_length (by omega), List.drop_append_of_le_length (by omega)]
  have hcapture : (run ++ rest).take ((run ++ rest).length - (run.drop (k + 1) ++ rest).length) =
      run.take (k + 1) := by
    have hlength : (run ++ rest).length - (run.drop (k + 1) ++ rest).length = k + 1 := by
      simp only [List.length_append, List.length_drop]
      omega
    rw [hlength, List.take_append_of_le_length (by omega)]
  rw [hstate, State.capture, hcapture]
  rw [flatMap_literal_of_stops hstops hsuffix hrest
    (fun c hc => hrun c (List.mem_of_mem_drop hc)) _ _, ← List.append_assoc,
    ← List.reverse_append, List.take_append_drop]

/-- **A suffix divides a run in one way**: behind a value and its suffix the rest goes on. -/
theorem flatMap_value_of_divides {value : List Char} (hne : value ≠ [])
    (hvalue : ∀ c ∈ value, s.contains c = true) (before : List Char)
    (captures : List (Nat × List Char)) (i : Nat) :
    ((Expr.group i (.rep (.set s) 1 none false)).ways
        { before, after := value ++ suffix ++ rest, captures }).flatMap
        (fun st => (waysAll (suffix.map fun c => .set (.only c)) st).flatMap ways) =
      ways { before := (value ++ suffix).reverse ++ before, after := rest,
             captures := (i, value) :: captures } := by
  have hrun : ∀ c ∈ value ++ suffix, s.contains c = true := by
    intro c hc
    exact (List.mem_append.mp hc).elim (hvalue c) (hsuffix c)
  have hlength : 0 < value.length := List.length_pos_iff.mpr hne
  rw [flatMap_group_plus_literal hstops hsuffix hrest hrun,
    flatMap_reverse_range (j := value.length - 1) (by rw [List.length_append]; omega)]
  · rw [Nat.sub_add_cancel hlength, List.drop_left, List.take_left, if_pos rfl]
  · intro k hk hkne
    rw [if_neg]
    intro hdrop
    have hcount := congrArg List.length hdrop
    rw [List.length_drop, List.length_append] at hcount
    rw [List.length_append] at hk
    omega

/-- A run that is no value with the suffix has no way on. -/
theorem flatMap_value_of_not_divides {run : List Char} (hrun : ∀ c ∈ run, s.contains c = true)
    (h : ∀ value, value ≠ [] → run ≠ value ++ suffix) (before : List Char)
    (captures : List (Nat × List Char)) (i : Nat) :
    ((Expr.group i (.rep (.set s) 1 none false)).ways
        { before, after := run ++ rest, captures }).flatMap
        (fun st => (waysAll (suffix.map fun c => .set (.only c)) st).flatMap ways) = [] := by
  rw [flatMap_group_plus_literal hstops hsuffix hrest hrun, List.flatMap_eq_nil_iff]
  intro k hk
  rw [if_neg]
  rintro hdrop
  have hlt : k < run.length := by simpa using hk
  refine h (run.take (k + 1)) ?_ ?_
  · rw [← List.length_pos_iff, List.length_take]
    omega
  · rw [← hdrop, List.take_append_drop]

end Suffix

end Switchboard.Pattern
