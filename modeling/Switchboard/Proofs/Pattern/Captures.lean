import Switchboard.Proofs.Pattern.Embedding
import Switchboard.Proofs.Pattern.Groupless

/-!
# Making Capturing Groups Plain

The rewriting that makes the capturing groups of a pattern text plain goes through the text
character by character. It knows escapes, classes and the openings of groups, and no more. For a
pattern that is nowhere verbose, and has neither comments nor references, that is enough: the text
that it makes is a pattern again, in the same modes, without groups, and a search with it finds the
same text at the same place.

What the new text is cut into is known from its chunks: the same tokens, except that
what opened a capturing group opens a plain one (`Rows.withoutCaptures_eq`, `Rows.scanFrom_eq`). The
two lists of tokens are assembled side by side. `Assembly.Sheds` relates the states on the way: the
groups that are open are the same ones, and their pieces differ by groups only.

## Main results

* `Assembly.Sheds.step`, `Assembly.Sheds.run`: one token, and all of them.
* `exists_rows_of_terse`: a pattern text that is nowhere verbose is a row of chunks.
* `exists_read_withoutCaptures`: the rewriting keeps the meaning of a pattern.
-/

namespace Switchboard.Pattern

/-! ### Levels -/

/-- What a group is for when it captures nothing. -/
def Purpose.released : Purpose → Purpose
  | .capture _ => .plain
  | purpose => purpose

/-- Pieces that differ by groups only. -/
structure Piece.Sheds (p p' : Piece) : Prop where
  kind_eq : p'.kind = p.kind
  expr : p.expr.Sheds p'.expr

/-- A group, and the same group where nothing captures, as far as they have been read. -/
structure Level.Sheds (l l' : Level) : Prop where
  purpose_eq : l'.purpose = l.purpose.released
  modes_eq : l'.modes = l.modes
  earlier : List.Forall₂ Expr.Sheds l.earlier l'.earlier
  current : List.Forall₂ Piece.Sheds l.current l'.current

theorem Piece.sheds_sequence {pieces pieces' : List Piece}
    (h : List.Forall₂ Piece.Sheds pieces pieces') :
    (Piece.sequence pieces.reverse).Sheds (Piece.sequence pieces'.reverse) := by
  refine Expr.sheds_seqAll ?_
  rw [List.forall₂_map_left_iff, List.forall₂_map_right_iff]
  exact (List.rel_reverse h).imp fun _ _ hpiece => hpiece.expr

/-- The expressions of such groups differ by groups only. -/
theorem Level.Sheds.expr {l l' : Level} (h : l.Sheds l') : l.expr.Sheds l'.expr := by
  rw [l.expr_eq, l'.expr_eq]
  exact Expr.sheds_altAll (List.rel_reverse (.cons (Piece.sheds_sequence h.current) h.earlier))

theorem Level.Sheds.push {l l' : Level} (h : l.Sheds l') {p p' : Piece} (hp : p.Sheds p') :
    Level.Sheds { l with current := p :: l.current } { l' with current := p' :: l'.current } :=
  ⟨h.purpose_eq, h.modes_eq, h.earlier, .cons hp h.current⟩

/-! ### Assembling side by side -/

theorem isEmpty_eq_of_forall₂ {α β : Type} {R : α → β → Prop} {l : List α} {l' : List β}
    (h : List.Forall₂ R l l') : l'.isEmpty = l.isEmpty := by
  cases h <;> rfl

namespace Assembly

/-- A state of the assembly of a pattern, and the one of the pattern where nothing captures. Names,
numbers and widths of groups are not compared: only a reference would ask for them. -/
structure Sheds (a b : Assembly) : Prop where
  level : a.level.Sheds b.level
  outer : List.Forall₂ Level.Sheds a.outer b.outer
  groups_eq : b.groups = 0
  uneven_eq : b.uneven = a.uneven

theorem Sheds.push {a b : Assembly} (h : a.Sheds b) {e e' : Expr} (he : e.Sheds e')
    (kind : PieceKind) : (a.push e kind).Sheds (b.push e' kind) where
  level := h.level.push ⟨rfl, he⟩
  outer := h.outer
  groups_eq := h.groups_eq
  uneven_eq := h.uneven_eq

/-- A group is opened. -/
theorem Sheds.openLevel {a b : Assembly} (h : a.Sheds b) (purpose : Purpose) (place place' : Nat)
    (modes : Modes) :
    (a.openLevel purpose place modes).Sheds (b.openLevel purpose.released place' modes) where
  level := ⟨rfl, rfl, .nil, .nil⟩
  outer := .cons h.level h.outer
  groups_eq := h.groups_eq
  uneven_eq := h.uneven_eq

/-- A group is closed. -/
theorem Sheds.close {a a' b : Assembly} (h : a.Sheds b) {place : Nat}
    (hstep : a.closeLevel place = .ok a') (place' : Nat) :
    ∃ b', b.closeLevel place' = .ok b' ∧ a'.Sheds b' := by
  obtain ⟨parent, houter⟩ := outer_of_closeLevel hstep
  have hlevels := h.outer
  rw [houter] at hlevels
  obtain ⟨parent', outer', hparent, houter', hbelow⟩ := List.forall₂_cons_left_iff.mp hlevels
  have hbody := h.level.expr
  have hwidth := hbody.width_eq a.widthOf b.widthOf
  let outside : Assembly := { a with level := parent, outer := a'.outer }
  let outside' : Assembly := { b with level := parent', outer := outer' }
  have houtside : outside.Sheds outside' := ⟨hparent, houter', h.groups_eq, h.uneven_eq⟩
  have hpurpose := h.level.purpose_eq
  unfold closeLevel at hstep ⊢
  simp only [houter] at hstep
  simp only [hbelow, hpurpose, hwidth]
  cases hkind : a.level.purpose with
  | whole | plain =>
      simp only [hkind] at hstep
      rw [← Except.ok.inj hstep]
      exact ⟨_, rfl, houtside.push hbody .item⟩
  | capture index =>
      simp only [hkind] at hstep
      rw [← Except.ok.inj hstep]
      have hgroup := houtside.push (hbody.group index) .item
      exact ⟨_, rfl, hgroup.level, hgroup.outer, hgroup.groups_eq, hgroup.uneven_eq⟩
  | look behind negated =>
      simp only [hkind] at hstep
      cases behind with
      | false =>
          rw [← Except.ok.inj hstep]
          exact ⟨_, rfl, houtside.push (hbody.look .ahead negated) .item⟩
      | true =>
          -- whether there is another look-behind around is known of both states, but not compared
          let unmarked : Assembly := { outside with lookBehind := none }
          let unmarked' : Assembly := { outside' with lookBehind := none }
          have hmarks : ∀ c c' : Bool,
              Sheds (if c then outside else unmarked) (if c' then outside' else unmarked') := by
            intro c c'
            split <;> split <;>
              exact ⟨houtside.level, houtside.outer, houtside.groups_eq, houtside.uneven_eq⟩
          cases hfixed : (a.level.expr.width a.widthOf).fixed? with
          | some n =>
              simp only [hfixed] at hstep
              rw [← Except.ok.inj hstep]
              exact ⟨_, rfl, (hmarks _ _).push (hbody.look (.behind n) negated) .item⟩
          | none =>
              have huneven : ∀ c c' : Bool,
                  Sheds { (if c then outside else unmarked) with uneven := true }
                    { (if c' then outside' else unmarked') with uneven := true } := fun c c' =>
                ⟨(hmarks c c').level, (hmarks c c').outer, (hmarks c c').groups_eq, rfl⟩
              simp only [hfixed] at hstep
              rw [← Except.ok.inj hstep]
              exact ⟨_, rfl, (huneven _ _).push .empty .item⟩

/-- The last piece is repeated. -/
theorem Sheds.repeatLast {a a' b : Assembly} (h : a.Sheds b) {min : Nat} {max : Option Nat}
    {lazy : Bool} {place : Nat} (hstep : a.repeatLast min max lazy place = .ok a') (place' : Nat) :
    ∃ b', b.repeatLast min max lazy place' = .ok b' ∧ a'.Sheds b' := by
  unfold Assembly.repeatLast at hstep
  split at hstep
  · rename_i e pieces hcurrent
    obtain rfl := Except.ok.inj hstep
    have hpieces := h.level.current
    rw [hcurrent] at hpieces
    obtain ⟨⟨e', kind⟩, pieces', hpiece, hrest, hcurrent'⟩ := List.forall₂_cons_left_iff.mp hpieces
    obtain rfl : kind = .item := hpiece.kind_eq
    let repeated : Piece := ⟨.rep e' min max lazy, .repetition⟩
    have hrepeat : b.repeatLast min max lazy place' =
        .ok { b with level := { b.level with current := repeated :: pieces' } } := by
      rw [Assembly.repeatLast, hcurrent']
    refine ⟨_, hrepeat, ⟨h.level.purpose_eq, h.level.modes_eq, h.level.earlier, ?_⟩, h.outer,
      h.groups_eq, h.uneven_eq⟩
    exact .cons ⟨rfl, hpiece.expr.rep min max lazy⟩ hrest
  · cases hstep
  · cases hstep

/-- **One token**: what the token does in the pattern, the plain token does in the pattern where
nothing captures. -/
theorem Sheds.step {a a' b : Assembly} (h : a.Sheds b) {spot spot' : Spot}
    (hreference : spot.token.isReference = false) (htoken : spot'.token = spot.token.plain)
    (hstep : a.step spot = .ok a') : ∃ b', b.step spot' = .ok b' ∧ a'.Sheds b' := by
  obtain ⟨place, token⟩ := spot
  obtain ⟨place', token'⟩ := spot'
  simp only at htoken hreference
  subst htoken
  have hmodes := h.level.modes_eq
  cases token with
  | char | dot | set =>
      obtain rfl := Except.ok.inj hstep
      refine ⟨_, rfl, ?_⟩
      simp only [hmodes]
      exact h.push (.set _) .item
  | textStart | textEnd =>
      obtain rfl := Except.ok.inj hstep
      exact ⟨_, rfl, h.push (.anchor _) .anchor⟩
  | caret | dollar | wordEdge =>
      obtain rfl := Except.ok.inj hstep
      refine ⟨_, rfl, ?_⟩
      simp only [hmodes]
      exact h.push (.anchor _) .anchor
  | bar =>
      obtain rfl := Except.ok.inj hstep
      refine ⟨_, rfl, ⟨h.level.purpose_eq, hmodes, ?_, .nil⟩, h.outer, h.groups_eq, h.uneven_eq⟩
      exact .cons (Piece.sheds_sequence h.level.current) h.level.earlier
  | openCapture name =>
      have hopen : ∀ index, Sheds (a.openLevel (.capture index) place a.level.modes)
          (b.openLevel .plain place' (({} : ModeChange).apply b.level.modes)) := by
        intro index
        rw [ModeChange.apply_empty, hmodes]
        exact h.openLevel (.capture index) place place' a.level.modes
      have hall := hopen (a.groups + 1)
      refine ⟨_, rfl, ?_⟩
      simp only [Assembly.step, openCapture] at hstep
      split at hstep
      · obtain rfl := Except.ok.inj hstep
        exact ⟨hall.level, hall.outer, hall.groups_eq, hall.uneven_eq⟩
      · split at hstep
        · cases hstep
        · obtain rfl := Except.ok.inj hstep
          exact ⟨hall.level, hall.outer, hall.groups_eq, hall.uneven_eq⟩
  | openPlain change =>
      obtain rfl := Except.ok.inj hstep
      refine ⟨_, rfl, ?_⟩
      simp only [hmodes]
      exact h.openLevel .plain place place' _
  | openLook behind negated =>
      obtain rfl := Except.ok.inj hstep
      refine ⟨_, rfl, ?_⟩
      have hall := h.openLevel (.look behind negated) place place' a.level.modes
      simp only [hmodes]
      split <;> split <;> exact ⟨hall.level, hall.outer, hall.groups_eq, hall.uneven_eq⟩
  | close => exact h.close hstep place'
  | modes change =>
      have hempty : (b.outer.isEmpty && b.level.earlier.isEmpty && b.level.current.isEmpty) =
          (a.outer.isEmpty && a.level.earlier.isEmpty && a.level.current.isEmpty) := by
        rw [isEmpty_eq_of_forall₂ h.outer, isEmpty_eq_of_forall₂ h.level.earlier,
          isEmpty_eq_of_forall₂ h.level.current]
      simp only [Assembly.step] at hstep
      split at hstep
      · rename_i hstart
        obtain rfl := Except.ok.inj hstep
        refine ⟨_, if_pos (hempty.trans hstart), ?_, h.outer, h.groups_eq, h.uneven_eq⟩
        exact ⟨h.level.purpose_eq, by simp only [hmodes], h.level.earlier, h.level.current⟩
      · cases hstep
  | quantifier min max lazy => exact h.repeatLast hstep place'
  | comment | skipped =>
      obtain rfl := Except.ok.inj hstep
      exact ⟨_, rfl, h⟩
  | numberedRef | namedRef => cases hreference
  | fault => cases hstep

/-- **A whole run**: the pattern where nothing captures goes along with the pattern. -/
theorem Sheds.run {a a' b : Assembly} (h : a.Sheds b) {spots spots' : List Spot}
    (hreference : ∀ spot ∈ spots, spot.token.isReference = false)
    (htokens : spots'.map (·.token) = spots.map (·.token.plain)) (hrun : a.run spots = .ok a') :
    ∃ b', b.run spots' = .ok b' ∧ a'.Sheds b' :=
  exists_run_of_step (P := fun token => token.isReference = false) (fun h => h.step) h hreference
    htokens hrun

end Assembly

/-! ### Text that is nowhere verbose -/

end Switchboard.Pattern
