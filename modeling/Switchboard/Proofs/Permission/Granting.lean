import Switchboard.Proofs.Permission.History

/-!
# Granting and Denying

A new permission may stand anywhere in the order in which a request tries its keys. In front of the
permission that has decided so far, or in its place, it decides from now on. Behind it, or for a key that
the request does not try, nothing changes. The answer is therefore the old one or the new permission, and
never a third (`PermissionTable.lookup_set`), so that a permission which says what the table has said
already makes no difference to the decision.

## Main results

* `PermissionTable.lookup_set`: what a request finds after a permission has been set.
* `PermissionTable.granting_never_revokes`: nobody loses by a grant, and nobody gains by a denial.
-/

namespace Switchboard.PermissionTable

/-- Where the value of one key is new, a search finds what it has found before or the new value. -/
theorem findSome?_of_changed {f g : PermissionKey → Option Bool} {key : PermissionKey} {value : Bool}
    (hg : ∀ k, g k = if k = key then some value else f k) (keys : List PermissionKey) :
    keys.findSome? g = keys.findSome? f ∨ keys.findSome? g = some value := by
  induction keys with
  | nil => exact .inl rfl
  | cons k keys ih =>
      by_cases hk : k = key
      · -- The new value comes first here, whatever the old ones behind it are.
        right
        rw [List.findSome?_cons, hg, if_pos hk]
      · rw [List.findSome?_cons, List.findSome?_cons, hg, if_neg hk]
        cases f k with
        | none => exact ih
        | some old => exact .inl rfl

/-- **A new permission decides or changes nothing.** -/
theorem lookup_set (table : PermissionTable) (path : String) (allowed : Bool) (user channel : Value)
    (query : String) (source replyto : Value) :
    (table.set path allowed user channel).lookup query source replyto =
        table.lookup query source replyto ∨
      (table.set path allowed user channel).lookup query source replyto = some allowed :=
  findSome?_of_changed (get?_edit table (.set path allowed user channel))
    (table.applicable query source replyto)

/-- A decision that a new permission repeats stays as it was. -/
theorem allow_set {table : PermissionTable} {allowed : Bool} {query : String} {source replyto : Value}
    (h : (table.allow query source replyto).value = allowed) (path : String) (user channel : Value) :
    ((table.set path allowed user channel).allow query source replyto).value = allowed := by
  have hfallback : (table.set path allowed user channel).fallback = table.fallback := rfl
  rw [value_allow] at h ⊢
  rcases lookup_set table path allowed user channel query source replyto with hold | hnew
  · rw [hold, hfallback, h]
  · rw [hnew, Option.getD_some]

/-- **Granting never revokes, and denying never grants.** In every table, whatever its default and
its separator are, a request that is allowed stays so when a permission is granted, and one that is
refused stays so when a permission is denied, whatever key the permission is for. -/
theorem granting_never_revokes (table : PermissionTable) (path : String) (user channel : Value)
    (query : String) (source replyto : Value) :
    ((table.allow query source replyto).value = true →
        ((table.set path true user channel).allow query source replyto).value = true) ∧
      ((table.allow query source replyto).value = false →
        ((table.set path false user channel).allow query source replyto).value = false) :=
  ⟨fun h => allow_set h path user channel, fun h => allow_set h path user channel⟩

/-- Only alice may set karma, and everything else is up to the default. -/
def aliceTable : PermissionTable :=
  (({} : PermissionTable).set "karma" true (.text "alice")).set "karma" false

/-- Alice keeps what she may do when all of the channel may do it too, and bob does not get it when
it is denied to alice. -/
theorem granting_never_revokes_alice :
    (aliceTable.allow "karma::set" (.text "alice") (.text "#chan")).value = true ∧
      ((aliceTable.set "karma::set" true anyone (.text "#chan")).allow "karma::set" (.text "alice")
        (.text "#chan")).value = true ∧
      (aliceTable.allow "karma::set" (.text "bob") (.text "#chan")).value = false ∧
      ((aliceTable.set "karma" false (.text "alice")).allow "karma::set" (.text "bob")
        (.text "#chan")).value = false := by
  have halice : (aliceTable.allow "karma::set" (.text "alice") (.text "#chan")).value = true := by decide
  have hbob : (aliceTable.allow "karma::set" (.text "bob") (.text "#chan")).value = false := by decide
  obtain ⟨hgrant, -⟩ := granting_never_revokes aliceTable "karma::set" anyone (.text "#chan")
    "karma::set" (.text "alice") (.text "#chan")
  obtain ⟨-, hdeny⟩ := granting_never_revokes aliceTable "karma" (.text "alice") anyone "karma::set"
    (.text "bob") (.text "#chan")
  exact ⟨halice, hgrant halice, hbob, hdeny hbob⟩

end Switchboard.PermissionTable
