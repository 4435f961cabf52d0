import Switchboard.Pattern.Assembly

/-!
# What a Token Can Do

`Assembly.step` has a case for each token, but there are only six things that can happen to the open
groups (`Assembly.Moves`): nothing, new modes at the start of the pattern, another piece or alternative
in the innermost group, a group opened that captures or one that does not, or a group closed. What
holds of the open groups all along a run is shown for these six.

The groups around the innermost one are a stack. A token reaches the group below only by closing, so
the outermost group (`Assembly.root`) keeps its modes as soon as the pattern has had any piece, bar or
group. From there on no token can set modes any more. It also keeps its alternatives, as long as bars
stand in other groups.

## Main results

* `Assembly.moves_of_step`: the six things that a token can do.
* `Assembly.length_foldl_nesting`: the groups that the scan knows to be open are those that are.
* `Assembly.Touched.modes_root_of_run`: when the modes of a pattern stay.
* `Assembly.groups_of_run`, `Assembly.Numbered.of_run`: how groups are numbered.
-/

namespace Switchboard.Pattern

/-- The number of open groups after a token. -/
def Token.depth (n : Nat) : Token → Nat
  | .openCapture _ | .openPlain _ | .openLook _ _ => n + 1
  | .close => n - 1
  | _ => n

/-- Whether a token opens a group that captures. -/
def Token.isCapture : Token → Bool
  | .openCapture _ => true
  | _ => false

/-- The number of groups that capture among tokens. -/
def captureCount (tokens : List Token) : Nat := tokens.countP Token.isCapture

theorem captureCount_cons (token : Token) (tokens : List Token) :
    captureCount (token :: tokens) = captureCount tokens + (if token.isCapture then 1 else 0) :=
  List.countP_cons

theorem captureCount_append (tokens more : List Token) :
    captureCount (tokens ++ more) = captureCount tokens + captureCount more := List.countP_append

theorem captureCount_eq_zero {tokens : List Token} (h : ∀ token ∈ tokens, token.isCapture = false) :
    captureCount tokens = 0 :=
  List.countP_eq_zero.mpr fun token htoken => by simp [h token htoken]

/-- The scan counts the open groups in this way. -/
theorem Token.length_nesting {verbose : List Bool} (h : verbose ≠ []) (token : Token) :
    (token.nesting verbose).length = token.depth verbose.length := by
  obtain ⟨b, verbose, rfl⟩ := List.exists_cons_of_ne_nil h
  cases token <;> rfl

theorem Modes.union_empty (m : Modes) : m.union {} = m := by simp [union]

theorem Modes.union_assoc (m n o : Modes) : (m.union n).union o = m.union (n.union o) := by
  simp [union, Bool.or_assoc]

namespace Assembly

/-! ### Runs -/

/-- A run takes one token after the other. -/
theorem run_cons_eq_ok_iff {a a' : Assembly} {spot : Spot} {spots : List Spot} :
    a.run (spot :: spots) = .ok a' ↔ ∃ b, a.step spot = .ok b ∧ b.run spots = .ok a' := by
  rw [run, List.foldlM_cons]
  cases a.step spot with
  | error fault => simp [bind, Except.bind]
  | ok b => simp [bind, Except.bind, run]

/-- A run over two lists of tokens is a run over one and then the other. -/
theorem run_append_eq_ok_iff {a a' : Assembly} {spots spots' : List Spot} :
    a.run (spots ++ spots') = .ok a' ↔ ∃ b, a.run spots = .ok b ∧ b.run spots' = .ok a' := by
  rw [run_append]
  cases a.run spots <;> simp [bind, Except.bind]

/-! ### The six moves -/

/-- The group that a token refers to, if it refers to one, is there and has been closed. -/
def Resolves (a : Assembly) : Token → Prop
  | .numberedRef index => (a.widths.lookup index).isSome = true
  | .namedRef name => (a.names.lookup name).isSome = true
  | _ => True

/-- The state with other modes in the innermost group. -/
def withModes (a : Assembly) (modes : Modes) : Assembly :=
  { a with level := { a.level with modes } }

/-- What a token can do to the state of an assembly. -/
inductive Moves (a : Assembly) (token : Token) : Assembly → Prop where
  /-- The token means nothing. -/
  | stays (htoken : token = .comment ∨ token = .skipped) : Moves a token a
  /-- Modes are set for the whole pattern. -/
  | sets {change : ModeChange} (htoken : token = .modes change) (houter : a.outer = [])
      (hearlier : a.level.earlier = []) (hcurrent : a.level.current = []) :
      Moves a token (a.withModes (a.level.modes.union change.on))
  /-- The innermost group gets another piece, or another alternative. -/
  | adds {earlier : List Expr} {current : List Piece} (hdepth : ∀ n, token.depth n = n)
      (hearlier : token ≠ .bar → earlier = a.level.earlier) (hne : earlier ≠ [] ∨ current ≠ [])
      (hresolves : a.Resolves token) :
      Moves a token { a with level := { a.level with earlier, current } }
  /-- A group is opened that captures. -/
  | captures {name : Option String} {place : Nat} {names : List (String × Nat)}
      (htoken : token = .openCapture name) (hnames : name = none → names = a.names) :
      Moves a token { a with
        level := { purpose := .capture (a.groups + 1), place, modes := a.level.modes },
        outer := a.level :: a.outer, groups := a.groups + 1, names }
  /-- A group is opened that does not capture. -/
  | opens {purpose : Purpose} {place : Nat} {modes : Modes} {lookBehind : Option Nat}
      (hdepth : ∀ n, token.depth n = n + 1) (hcapture : token.isCapture = false)
      (hpurpose : ∀ index, purpose ≠ .capture index) :
      Moves a token { a with
        level := { purpose, place, modes }, outer := a.level :: a.outer, lookBehind }
  /-- The innermost group is closed, and is a piece of the group around it. -/
  | closes {parent : Level} {outer : List Level} {piece : Piece} {widths : List (Nat × Width)}
      {lookBehind : Option Nat} {uneven : Bool} (htoken : token = .close)
      (houter : a.outer = parent :: outer)
      (hwidths : ∀ index, (widths.lookup index).isSome = true →
        (a.widths.lookup index).isSome = true ∨ a.level.purpose = .capture index) :
      Moves a token { a with
        level := { parent with current := piece :: parent.current }, outer, widths, lookBehind,
        uneven }

/-- Closing a group. -/
theorem moves_of_closeLevel {a b : Assembly} {place : Nat} (h : a.closeLevel place = .ok b) :
    a.Moves .close b := by
  unfold closeLevel at h
  cases houter : a.outer with
  | nil =>
      rw [houter] at h
      cases h
  | cons parent outer =>
      rw [houter] at h
      have hmark : ∀ c : Bool, (if c then { a with level := parent, outer }
          else { a with level := parent, outer, lookBehind := none }) =
            { a with level := parent, outer, lookBehind := if c then a.lookBehind else none } := by
        intro c
        cases c <;> rfl
      cases hpurpose : a.level.purpose with
      | capture index =>
          simp only [hpurpose] at h
          obtain rfl := Except.ok.inj h
          refine .closes rfl houter fun other hother => ?_
          by_cases heq : other = index
          · exact .inr (heq ▸ hpurpose)
          · refine .inl ?_
            have hbeq : (other == index) = false := by simpa using heq
            simpa only [push, List.lookup_cons, hbeq] using hother
      | look behind negated =>
          simp only [hpurpose] at h
          cases behind with
          | false =>
              obtain rfl := Except.ok.inj h
              exact .closes rfl houter fun _ => .inl
          | true =>
              simp only [hmark] at h
              cases hfixed : (a.level.expr.width a.widthOf).fixed? with
              | some n =>
                  simp only [hfixed] at h
                  obtain rfl := Except.ok.inj h
                  exact .closes rfl houter fun _ => .inl
              | none =>
                  simp only [hfixed] at h
                  obtain rfl := Except.ok.inj h
                  exact .closes rfl houter fun _ => .inl
      | whole | plain =>
          simp only [hpurpose] at h
          obtain rfl := Except.ok.inj h
          exact .closes rfl houter fun _ => .inl

/-- A group is closed only when one is open. -/
theorem outer_of_closeLevel {a b : Assembly} {place : Nat} (h : a.closeLevel place = .ok b) :
    ∃ parent, a.outer = parent :: b.outer := by
  cases moves_of_closeLevel h with
  | closes _ houter => exact ⟨_, houter⟩
  | stays htoken => rcases htoken with htoken | htoken <;> cases htoken
  | sets htoken => cases htoken
  | adds hdepth => exact absurd (hdepth 1) (by decide)
  | captures htoken => cases htoken
  | opens hdepth => exact absurd (hdepth 1) (by decide)

/-- A reference adds a piece, when its group has been closed. -/
theorem exists_of_refer {a b : Assembly} {index place stop : Nat} (h : a.refer index place stop = .ok b) :
    (a.widths.lookup index).isSome = true ∧ ∃ e, b = a.push e := by
  unfold refer at h
  split at h
  · cases h
  · rename_i hclosed
    split at h
    · cases h
    · obtain rfl := Except.ok.inj h
      exact ⟨by simpa [Option.isSome_iff_ne_none] using hclosed, _, rfl⟩

/-- **What a token can do**: one of the six moves. -/
theorem moves_of_step {a b : Assembly} {spot : Spot} (h : a.step spot = .ok b) :
    a.Moves spot.token b := by
  obtain ⟨place, token⟩ := spot
  have hpush : ∀ {e : Expr} {kind : PieceKind}, (∀ n, token.depth n = n) → a.Resolves token →
      a.Moves token (a.push e kind) :=
    fun hdepth hresolves => .adds hdepth (fun _ => rfl) (.inr (List.cons_ne_nil _ _)) hresolves
  cases token with
  | numberedRef index =>
      simp only [step] at h
      split at h
      · cases h
      · obtain ⟨hclosed, e, rfl⟩ := exists_of_refer h
        exact hpush (fun _ => rfl) hclosed
  | namedRef name =>
      simp only [step] at h
      split at h
      · cases h
      · rename_i index hname
        obtain ⟨-, e, rfl⟩ := exists_of_refer h
        exact hpush (fun _ => rfl) (by rw [Resolves, hname]; rfl)
  | openCapture name =>
      simp only [step, openCapture] at h
      split at h
      · obtain rfl := Except.ok.inj h
        exact .captures rfl fun _ => rfl
      · split at h
        · cases h
        · obtain rfl := Except.ok.inj h
          exact .captures rfl nofun
  | openPlain change =>
      obtain rfl := Except.ok.inj h
      exact .opens (fun _ => rfl) rfl nofun
  | openLook behind negated =>
      simp only [step] at h
      split at h <;> (obtain rfl := Except.ok.inj h; exact .opens (fun _ => rfl) rfl nofun)
  | close => exact moves_of_closeLevel h
  | modes change =>
      simp only [step] at h
      split at h
      · rename_i hstart
        obtain rfl := Except.ok.inj h
        simp only [Bool.and_eq_true, List.isEmpty_iff] at hstart
        exact .sets rfl hstart.1.1 hstart.1.2 hstart.2
      · cases h
  | quantifier min max lazy =>
      simp only [step, repeatLast] at h
      split at h
      · obtain rfl := Except.ok.inj h
        exact .adds (fun _ => rfl) (fun _ => rfl) (.inr (List.cons_ne_nil _ _)) trivial
      · cases h
      · cases h
  | bar =>
      obtain rfl := Except.ok.inj h
      exact .adds (fun _ => rfl) (fun hbar => absurd rfl hbar) (.inl (List.cons_ne_nil _ _)) trivial
  | comment =>
      obtain rfl := Except.ok.inj h
      exact .stays (.inl rfl)
  | skipped =>
      obtain rfl := Except.ok.inj h
      exact .stays (.inr rfl)
  | fault cause offset => cases h
  | _ =>
      obtain rfl := Except.ok.inj h
      exact hpush (fun _ => rfl) trivial

/-! ### How many groups are open -/

/-- A token opens and closes groups as its depth says. -/
theorem Moves.length_outer {a b : Assembly} {token : Token} (h : a.Moves token b) :
    b.outer.length + 1 = token.depth (a.outer.length + 1) := by
  cases h with
  | stays htoken => rcases htoken with rfl | rfl <;> rfl
  | sets htoken =>
      subst htoken
      rfl
  | adds hdepth => rw [hdepth]
  | captures htoken =>
      subst htoken
      rfl
  | opens hdepth =>
      rw [hdepth]
      rfl
  | closes htoken houter =>
      subst htoken
      rw [houter]
      rfl

/-- The groups that the scan knows to be open are those that are open in the assembly. -/
theorem length_nesting_of_step {a b : Assembly} {spot : Spot} (h : a.step spot = .ok b)
    {verbose : List Bool} (hlength : verbose.length = a.outer.length + 1) :
    (spot.token.nesting verbose).length = b.outer.length + 1 := by
  have hopen : verbose ≠ [] := List.ne_nil_of_length_pos (by omega)
  rw [Token.length_nesting hopen, hlength, (moves_of_step h).length_outer]

/-- The groups that the scan knows to be open at the end of a run. -/
theorem length_foldl_nesting {a b : Assembly} {spots : List Spot} (h : a.run spots = .ok b)
    (verbose : List Bool) (hlength : verbose.length = a.outer.length + 1) :
    ((spots.map (·.token)).foldl Token.nesting verbose).length = b.outer.length + 1 := by
  induction spots generalizing a verbose with
  | nil =>
      obtain rfl := Except.ok.inj h
      exact hlength
  | cons spot spots ih =>
      obtain ⟨next, hstep, hrun⟩ := run_cons_eq_ok_iff.mp h
      exact ih hrun _ (length_nesting_of_step hstep hlength)

/-! ### The outermost group -/

/-- The outermost group. -/
def root (a : Assembly) : Level := (a.level :: a.outer).getLast (List.cons_ne_nil _ _)

theorem root_of_outer_eq_nil {a : Assembly} (h : a.outer = []) : a.root = a.level := by
  simp [root, h]

/-- The pattern has had a piece, a bar or a group. -/
def Touched (a : Assembly) : Prop := a.outer ≠ [] ∨ a.level.earlier ≠ [] ∨ a.level.current ≠ []

/-- A token either means nothing, or sets modes at the start of the pattern, or touches it and leaves
its modes as they are. -/
theorem Moves.modes_root {a b : Assembly} {token : Token} (h : a.Moves token b) :
    (b = a ∧ (token = .comment ∨ token = .skipped)) ∨
    (¬ a.Touched ∧ ∃ change, token = .modes change ∧
      b = a.withModes (a.level.modes.union change.on)) ∨
    (b.Touched ∧ b.root.modes = a.root.modes) := by
  cases h with
  | stays htoken => exact .inl ⟨rfl, htoken⟩
  | sets htoken houter hearlier hcurrent =>
      exact .inr (.inl ⟨by simp [Touched, houter, hearlier, hcurrent], _, htoken, rfl⟩)
  | adds hdepth hearlier hne =>
      refine .inr (.inr ⟨.inr hne, ?_⟩)
      cases houter : a.outer <;> simp [root, houter]
  | captures | opens => exact .inr (.inr ⟨.inl (List.cons_ne_nil _ _), rfl⟩)
  | @closes parent outer _ _ _ _ htoken houter =>
      refine .inr (.inr ⟨.inr (.inr (List.cons_ne_nil _ _)), ?_⟩)
      cases outer <;> simp [root, houter]

/-- In a pattern that has not been touched modes can be set. -/
theorem step_modes {a : Assembly} (h : ¬ a.Touched) (place : Nat) (change : ModeChange) :
    a.step ⟨place, .modes change⟩ = .ok (a.withModes (a.level.modes.union change.on)) := by
  simp only [Touched, not_or, Classical.not_not] at h
  obtain ⟨houter, hearlier, hcurrent⟩ := h
  simp [step, withModes, houter, hearlier, hcurrent]

/-- **When the modes stay**: a pattern that has been touched keeps its modes. -/
theorem Touched.modes_root_of_run {a b : Assembly} (h : a.Touched) {spots : List Spot}
    (hrun : a.run spots = .ok b) : b.root.modes = a.root.modes := by
  induction spots generalizing a with
  | nil =>
      obtain rfl := Except.ok.inj hrun
      rfl
  | cons spot spots ih =>
      obtain ⟨next, hstep, hrest⟩ := run_cons_eq_ok_iff.mp hrun
      rcases (moves_of_step hstep).modes_root with ⟨hnext, -⟩ | ⟨hnot, -⟩ | ⟨hnext, hmodes⟩
      · exact ih h (hnext ▸ hrest)
      · exact absurd h hnot
      · exact (ih hnext hrest).trans hmodes

/-- The modes of a pattern are never taken back. -/
theorem exists_union_of_run {a b : Assembly} {spots : List Spot} (hrun : a.run spots = .ok b) :
    ∃ on, b.root.modes = a.root.modes.union on := by
  induction spots generalizing a with
  | nil =>
      obtain rfl := Except.ok.inj hrun
      exact ⟨{}, (Modes.union_empty _).symm⟩
  | cons spot spots ih =>
      obtain ⟨next, hstep, hrest⟩ := run_cons_eq_ok_iff.mp hrun
      obtain ⟨on, hon⟩ := ih hrest
      rcases (moves_of_step hstep).modes_root with ⟨rfl, -⟩ | ⟨hnot, change, -, rfl⟩ | ⟨-, hmodes⟩
      · exact ⟨on, hon⟩
      · have houter : a.outer = [] := Classical.byContradiction fun hne => hnot (.inl hne)
        refine ⟨change.on.union on, hon.trans ?_⟩
        simp [root, withModes, houter, Modes.union_assoc]
      · exact ⟨on, hmodes ▸ hon⟩

/-- The outermost group keeps its alternatives, unless a bar stands in it. -/
theorem Moves.earlier_root {a b : Assembly} {token : Token} (h : a.Moves token b)
    (hbar : token = .bar → a.outer ≠ []) : b.root.earlier = a.root.earlier := by
  cases h with
  | stays => rfl
  | sets htoken houter => simp [root, withModes, houter]
  | adds hdepth hearlier =>
      cases houter : a.outer with
      | nil =>
          simpa [root, houter] using hearlier fun htoken => hbar htoken houter
      | cons => simp [root, houter]
  | captures | opens => rfl
  | @closes parent outer _ _ _ _ htoken houter => cases outer <;> simp [root, houter]

/-! ### The numbers of groups -/

/-- A token that opens a group that captures adds a group, and no other token does. -/
theorem Moves.groups_eq {a b : Assembly} {token : Token} (h : a.Moves token b) :
    b.groups = a.groups + (if token.isCapture then 1 else 0) := by
  cases h with
  | stays htoken => rcases htoken with rfl | rfl <;> rfl
  | sets htoken | captures htoken | closes htoken =>
      subst htoken
      rfl
  | adds hdepth =>
      cases token with
      | openCapture => exact absurd (hdepth 1) (by simp [Token.depth])
      | _ => rfl
  | opens hdepth hcapture => simp [hcapture]

/-- **How many groups there are** after a run. -/
theorem groups_of_run {a b : Assembly} {spots : List Spot} (hrun : a.run spots = .ok b) :
    b.groups = a.groups + captureCount (spots.map (·.token)) := by
  induction spots generalizing a with
  | nil =>
      obtain rfl := Except.ok.inj hrun
      rfl
  | cons spot spots ih =>
      obtain ⟨next, hstep, hrest⟩ := run_cons_eq_ok_iff.mp hrun
      rw [ih hrest, (moves_of_step hstep).groups_eq, List.map_cons, captureCount_cons]
      omega

/-- Only a group that is given a name adds to the names. -/
theorem names_of_run {a b : Assembly} {spots : List Spot} (hrun : a.run spots = .ok b)
    (hnames : ∀ spot ∈ spots, ∀ name, spot.token ≠ .openCapture (some name)) :
    b.names = a.names := by
  induction spots generalizing a with
  | nil =>
      obtain rfl := Except.ok.inj hrun
      rfl
  | cons spot spots ih =>
      obtain ⟨next, hstep, hrest⟩ := run_cons_eq_ok_iff.mp hrun
      obtain ⟨hspot, hspots⟩ := List.forall_mem_cons.mp hnames
      rw [ih hrest hspots]
      cases moves_of_step hstep with
      | @captures name _ _ htoken hkeeps =>
          cases name with
          | none => exact hkeeps rfl
          | some name => exact absurd htoken (hspot name)
      | _ => rfl

/-- The groups that are open or have been closed have numbers that have been given. -/
structure Numbered (a : Assembly) : Prop where
  closed : ∀ index, (a.widths.lookup index).isSome = true → index ≤ a.groups
  opened : ∀ level ∈ a.level :: a.outer, ∀ index, level.purpose = .capture index → index ≤ a.groups

theorem numbered_start (modes : Modes) : (start modes).Numbered := ⟨nofun, by simp [start]⟩

/-- A token keeps to the numbers. -/
theorem Numbered.moves {a b : Assembly} {token : Token} (h : a.Numbered) (hmoves : a.Moves token b) :
    b.Numbered := by
  obtain ⟨hlevel, houters⟩ := List.forall_mem_cons.mp h.opened
  cases hmoves with
  | stays => exact h
  | sets | adds => exact ⟨h.closed, List.forall_mem_cons.mpr ⟨hlevel, houters⟩⟩
  | captures =>
      refine ⟨fun index hindex => Nat.le_succ_of_le (h.closed index hindex),
        List.forall_mem_cons.mpr ⟨fun index hindex => ?_, fun level hmem index hindex =>
          Nat.le_succ_of_le (h.opened level hmem index hindex)⟩⟩
      obtain rfl := Purpose.capture.inj hindex
      exact Nat.le_refl _
  | opens hdepth hcapture hpurpose =>
      exact ⟨h.closed, List.forall_mem_cons.mpr
        ⟨fun index hindex => absurd hindex (hpurpose index), h.opened⟩⟩
  | closes htoken houter hwidths =>
      rw [houter] at houters
      refine ⟨fun index hindex => ?_, List.forall_mem_cons.mpr (List.forall_mem_cons.mp houters)⟩
      rcases hwidths index hindex with hclosed | hpurpose
      · exact h.closed index hclosed
      · exact hlevel index hpurpose

/-- **A run keeps to the numbers.** -/
theorem Numbered.of_run {a b : Assembly} (h : a.Numbered) {spots : List Spot}
    (hrun : a.run spots = .ok b) : b.Numbered := by
  induction spots generalizing a with
  | nil =>
      obtain rfl := Except.ok.inj hrun
      exact h
  | cons spot spots ih =>
      obtain ⟨next, hstep, hrest⟩ := run_cons_eq_ok_iff.mp hrun
      exact ih (h.moves (moves_of_step hstep)) hrest

end Assembly

end Switchboard.Pattern
