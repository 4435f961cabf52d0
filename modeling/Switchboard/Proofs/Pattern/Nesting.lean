import Switchboard.Proofs.Pattern.Moves

/-!
# Groups inside Groups

Tokens that are put into a group say nothing about what is around it, as long as they close no group
that they have not opened. `Nested` says this of a list of tokens by counting. A run over a pattern that
is read whole gives nested tokens (`Assembly.nested_of_run`), and these stay nested as plain tokens, at
any depth.

A reference asks for a group that has been closed. While a group is open, the groups inside it that do
not capture leave no group to refer to; so nested tokens in a group of their own can only refer to the
groups in front of it (`Assembly.refersWithin_of_run`).

## Main results

* `Assembly.nested_of_run`: the tokens of a run are nested.
* `Assembly.Nested.earlier_root_of_run`: nested tokens leave the outermost group in one alternative.
* `Assembly.refersWithin_of_run`: what the tokens of a group refer to.
-/

namespace Switchboard.Pattern

/-! ### Nested tokens -/

/-- With `n` groups open, tokens leave `m` open, and each of them that closes a group finds one open.
Unless `bars` allows others, each bar stands in one of the groups, too. -/
inductive Nested (bars : Bool) : Nat → List Token → Nat → Prop where
  | nil {n : Nat} : Nested bars n [] n
  | cons {n m : Nat} {token : Token} {tokens : List Token} (hclose : token = .close → 0 < n)
      (hbar : token = .bar → bars = true ∨ 0 < n) (hrest : Nested bars (token.depth n) tokens m) :
      Nested bars n (token :: tokens) m

/-- A token that is no bar and neither opens nor closes a group. -/
def Token.IsAtom (token : Token) : Prop := (∀ n, token.depth n = n) ∧ token ≠ .bar

theorem Token.IsAtom.isCapture_eq {token : Token} (h : token.IsAtom) : token.isCapture = false := by
  cases token with
  | openCapture => exact absurd (h.1 0) (by simp [Token.depth])
  | _ => rfl

namespace Nested

variable {bars : Bool} {l m n : Nat} {token : Token} {tokens more : List Token}

theorem append (h₁ : Nested bars l tokens m) (h₂ : Nested bars m more n) :
    Nested bars l (tokens ++ more) n := by
  induction h₁ with
  | nil => exact h₂
  | cons hclose hbar _ ih => exact .cons hclose hbar (ih h₂)

theorem split {first second : List Token} (h : Nested bars l (first ++ second) n) :
    ∃ m, Nested bars l first m ∧ Nested bars m second n := by
  induction first generalizing l with
  | nil => exact ⟨l, .nil, h⟩
  | cons token first ih =>
      cases h with
      | cons hclose hbar hrest =>
          obtain ⟨m, hfirst, hsecond⟩ := ih hrest
          exact ⟨m, .cons hclose hbar hfirst, hsecond⟩

/-- Atoms are nested anywhere. -/
theorem of_atoms (h : ∀ token ∈ tokens, token.IsAtom) : Nested bars n tokens n := by
  induction tokens with
  | nil => exact .nil
  | cons token tokens ih =>
      obtain ⟨⟨hdepth, hbar⟩, hmore⟩ := List.forall_mem_cons.mp h
      refine .cons (fun hclose => ?_) (fun heq => absurd heq hbar) (by rw [hdepth]; exact ih hmore)
      subst hclose
      exact absurd (hdepth 1) (by decide)

/-- In another group, bars do no harm. -/
theorem succ (h : Nested bars n tokens m) : Nested false (n + 1) tokens (m + 1) := by
  induction h with
  | nil => exact .nil
  | @cons n m token tokens hclose _ _ ih =>
      have hdepth : token.depth (n + 1) = token.depth n + 1 := by
        cases token with
        | close => exact (Nat.sub_add_cancel (hclose rfl)).symm
        | _ => rfl
      exact .cons (fun _ => n.succ_pos) (fun _ => .inr n.succ_pos) (hdepth ▸ ih)

/-- Tokens in a group of their own. -/
theorem enclosed (h : Nested bars 0 tokens 0) (hopen : token.depth 0 = 1) (hbar : token ≠ .bar)
    (hclose : token ≠ .close) : Nested false 0 (token :: tokens ++ [.close]) 0 := by
  refine .cons (fun heq => absurd heq hclose) (fun heq => absurd heq hbar) ?_
  rw [hopen]
  exact h.succ.append (.cons (fun _ => Nat.one_pos) nofun .nil)

/-- With more bars allowed. -/
theorem mono (h : Nested bars n tokens m) : Nested true n tokens m := by
  induction h with
  | nil => exact .nil
  | cons hclose _ _ ih => exact .cons hclose (fun _ => .inl rfl) ih

end Nested

namespace Assembly

/-- **The tokens of a run** are nested. -/
theorem nested_of_run {a b : Assembly} {spots : List Spot} (hrun : a.run spots = .ok b) :
    Nested true a.outer.length (spots.map (·.token)) b.outer.length := by
  induction spots generalizing a with
  | nil =>
      obtain rfl := Except.ok.inj hrun
      exact .nil
  | cons spot spots ih =>
      obtain ⟨next, hstep, hrest⟩ := run_cons_eq_ok_iff.mp hrun
      have hlength := (moves_of_step hstep).length_outer
      have hclose : spot.token = .close → 0 < a.outer.length := by
        intro htoken
        rw [htoken] at hlength
        have hdepth : Token.close.depth (a.outer.length + 1) = a.outer.length := rfl
        omega
      have hdepth : spot.token.depth (a.outer.length + 1) = spot.token.depth a.outer.length + 1 := by
        cases htoken : spot.token with
        | close => exact (Nat.sub_add_cancel (hclose htoken)).symm
        | _ => rfl
      refine .cons hclose (fun _ => .inl rfl) ?_
      rw [show spot.token.depth a.outer.length = next.outer.length by omega]
      exact ih hrest

/-- **Nested tokens** leave the outermost group in one alternative. -/
theorem earlier_root_of_run {a b : Assembly} {spots : List Spot} {n : Nat}
    (h : Nested false a.outer.length (spots.map (·.token)) n) (hrun : a.run spots = .ok b) :
    b.root.earlier = a.root.earlier := by
  induction spots generalizing a with
  | nil =>
      obtain rfl := Except.ok.inj hrun
      rfl
  | cons spot spots ih =>
      obtain ⟨next, hstep, hrest⟩ := run_cons_eq_ok_iff.mp hrun
      have hmoves := moves_of_step hstep
      have hlength := hmoves.length_outer
      cases h with
      | cons hclose hbar hnested =>
          have hdepth : spot.token.depth (a.outer.length + 1) =
              spot.token.depth a.outer.length + 1 := by
            cases htoken : spot.token with
            | close => exact (Nat.sub_add_cancel (hclose htoken)).symm
            | _ => rfl
          rw [show spot.token.depth a.outer.length = next.outer.length by omega] at hnested
          refine (ih hnested hrest).trans (hmoves.earlier_root fun htoken houter => ?_)
          rcases hbar htoken with hfalse | hpos
          · cases hfalse
          · exact absurd (congrArg List.length houter) (Nat.ne_of_gt hpos)

/-! ### What is around a group -/

/-- Open groups, innermost first: one around the levels below, and `n` inside it that do not
capture. -/
inductive Above (below : List Level) : Nat → List Level → Prop where
  | here {level : Level} : Above below 0 (level :: below)
  | inner {n : Nat} {level : Level} {stack : List Level}
      (hpurpose : ∀ index, level.purpose ≠ .capture index) (hstack : Above below n stack) :
      Above below (n + 1) (level :: stack)

/-- What the innermost group holds makes no difference. -/
theorem Above.replace {below stack : List Level} {n : Nat} {level level' : Level}
    (h : Above below n (level :: stack)) (hpurpose : level'.purpose = level.purpose) :
    Above below n (level' :: stack) := by
  cases h with
  | here => exact .here
  | inner hcapture hstack => exact .inner (hpurpose ▸ hcapture) hstack

/-- Inside a group no token that does not capture closes a group that does. -/
theorem Above.moves {a b : Assembly} {below : List Level} {n : Nat}
    (h : Above below n (a.level :: a.outer)) {token : Token} (hclose : token = .close → 0 < n)
    (hcapture : token.isCapture = false) (hmoves : a.Moves token b) :
    Above below (token.depth n) (b.level :: b.outer) ∧
      ∀ index, (b.widths.lookup index).isSome = true → (a.widths.lookup index).isSome = true := by
  cases hmoves with
  | stays htoken => rcases htoken with rfl | rfl <;> exact ⟨h, fun _ => id⟩
  | sets htoken =>
      subst htoken
      exact ⟨h.replace rfl, fun _ => id⟩
  | adds hdepth =>
      rw [hdepth]
      exact ⟨h.replace rfl, fun _ => id⟩
  | captures htoken =>
      subst htoken
      cases hcapture
  | opens hdepth _ hpurpose =>
      rw [hdepth]
      exact ⟨.inner hpurpose h, fun _ => id⟩
  | closes htoken houter hwidths =>
      subst htoken
      rw [houter] at h
      cases h with
      | here => exact absurd (hclose rfl) (Nat.lt_irrefl 0)
      | inner hpurpose hstack =>
          exact ⟨hstack.replace rfl, fun index hindex =>
            (hwidths index hindex).resolve_right (hpurpose index)⟩

/-- **Inside a group** nested tokens that do not capture close no group that does. -/
theorem Above.run {a b : Assembly} {below : List Level} {n m : Nat}
    (h : Above below n (a.level :: a.outer)) {spots : List Spot} (hnested : Nested true n (spots.map (·.token)) m)
    (hcapture : ∀ spot ∈ spots, spot.token.isCapture = false) (hrun : a.run spots = .ok b) :
    ∀ index, (b.widths.lookup index).isSome = true → (a.widths.lookup index).isSome = true := by
  induction spots generalizing a n with
  | nil =>
      obtain rfl := Except.ok.inj hrun
      exact fun _ => id
  | cons spot spots ih =>
      obtain ⟨next, hstep, hrest⟩ := run_cons_eq_ok_iff.mp hrun
      obtain ⟨hspot, hspots⟩ := List.forall_mem_cons.mp hcapture
      cases hnested with
      | cons hclose _ hnested =>
          obtain ⟨hnext, hclosed⟩ := h.moves hclose hspot (moves_of_step hstep)
          exact fun index hindex => hclosed index (ih hnext hnested hspots hrest index hindex)

/-! ### References -/

/-- The group that a reference asks for has been closed. -/
theorem Moves.resolves {a b : Assembly} {token : Token} (h : a.Moves token b) :
    a.Resolves token := by
  cases h with
  | stays htoken => rcases htoken with rfl | rfl <;> trivial
  | sets htoken | captures htoken | closes htoken =>
      subst htoken
      trivial
  | adds _ _ _ hresolves => exact hresolves
  | opens hdepth =>
      cases token with
      | numberedRef | namedRef => exact absurd (hdepth 0) (by simp [Token.depth])
      | _ => trivial

end Assembly

/-- A reference to one of the first `n` groups, by its number, or no reference at all. -/
def Token.RefersWithin (n : Nat) : Token → Prop
  | .numberedRef index => index ≤ n
  | .namedRef _ => False
  | _ => True

namespace Assembly

/-- Where no group has a name, and those that have been closed have such numbers. -/
theorem Resolves.refersWithin {a : Assembly} {token : Token} {n : Nat} (h : a.Resolves token)
    (hclosed : ∀ index, (a.widths.lookup index).isSome = true → index ≤ n) (hnames : a.names = []) :
    token.RefersWithin n := by
  cases token with
  | numberedRef index => exact hclosed index h
  | namedRef name =>
      rw [Resolves, hnames] at h
      cases h
  | _ => trivial

/-- **What the tokens of a group refer to.** Where no group has a name, nested tokens in a group that
captures can refer to the groups in front of it only, if they open no such group themselves. -/
theorem refersWithin_of_run {modes : Modes} {b : Assembly} {spots : List Spot}
    (hrun : (start modes).run spots = .ok b) {front inner back : List Token}
    (htokens : spots.map (·.token) = front ++ .openCapture none :: (inner ++ back))
    (hnames : ∀ spot ∈ spots, ∀ name, spot.token ≠ .openCapture (some name))
    (hnested : Nested true 0 inner 0) (hcapture : ∀ token ∈ inner, token.isCapture = false) :
    ∀ token ∈ inner, token.RefersWithin (captureCount front) := by
  intro token htoken
  obtain ⟨inner₁, inner₂, rfl⟩ := List.append_of_mem htoken
  obtain ⟨frontSpots, rest, rfl, hfront, hrest⟩ := List.map_eq_append_iff.mp htokens
  obtain ⟨⟨place, _⟩, rest, rfl, rfl, hmore⟩ := List.map_eq_cons_iff.mp hrest
  rw [List.append_assoc] at hmore
  obtain ⟨innerSpots, rest, rfl, rfl, hback⟩ := List.map_eq_append_iff.mp hmore
  obtain ⟨spot, backSpots, rfl, rfl, -⟩ := List.map_eq_cons_iff.mp hback
  obtain ⟨a, hrun₁, hrun⟩ := run_append_eq_ok_iff.mp hrun
  obtain ⟨opened, hopen, hrun⟩ := run_cons_eq_ok_iff.mp hrun
  obtain ⟨c, hrun₂, hrun⟩ := run_append_eq_ok_iff.mp hrun
  obtain ⟨d, hstep, -⟩ := run_cons_eq_ok_iff.mp hrun
  obtain rfl := Except.ok.inj hopen
  obtain ⟨hfrontNames, hrestNames⟩ := List.forall_mem_append.mp hnames
  obtain ⟨hinnerNames, -⟩ := List.forall_mem_append.mp (List.forall_mem_cons.mp hrestNames).2
  have hgroups : a.groups = captureCount front := by
    rw [groups_of_run hrun₁, hfront]
    exact Nat.zero_add _
  have hnumbered := (numbered_start modes).of_run hrun₁
  obtain ⟨m, hinner, -⟩ := hnested.split
  obtain ⟨hplain, -⟩ := List.forall_mem_append.mp hcapture
  have hwidths := @Above.run _ _ (a.level :: a.outer) _ _ .here _ hinner
    (fun spot hspot => hplain _ (List.mem_map_of_mem hspot)) hrun₂
  exact (moves_of_step hstep).resolves.refersWithin
    (fun index hindex => hgroups ▸ hnumbered.closed index (hwidths index hindex))
    ((names_of_run hrun₂ hinnerNames).trans (names_of_run hrun₁ hfrontNames))

end Assembly

end Switchboard.Pattern
