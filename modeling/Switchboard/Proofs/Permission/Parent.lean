import Switchboard.Proofs.Permission.Inheritance

/-!
# Permissions on a Parent Path

A path below another one is the other path, a separator and something more. A table does not keep paths in
this form: it cuts the path of a request at its separators, from left to right, and asks for its first
parts. When the parent ends in a piece of the separator, the cut is made too early. With `::` between the
parts, `a:::b` is the part `:b` below `a`, and nothing below `a:`.

So a permission on a parent governs the paths below it where the separator bounds the parent
(`Bounds`), which depends on the parent and the separator alone, and nowhere else.

## Main results

* `PermissionTable.allow_below`: what a table with a permission on the parent path decides.
* `PermissionTable.parent_not_found`: a parent that is not found below.
-/

namespace Switchboard.PermissionTable

/-- What stands in front of a separator is an ancestor of the path exactly where the separator bounds
it. -/
theorem mem_ancestors_below_iff {table : PermissionTable} (hseparator : table.separator ≠ "")
    (parent child : String) :
    parent ∈ table.ancestors (parent ++ table.separator ++ child) ↔ Bounds table.separator parent := by
  rw [mem_ancestors_iff, bounds_iff hseparator]

/-- A table with one entry finds it, or nothing. -/
theorem lookup_of_singleton {table : PermissionTable} {key : PermissionKey} {allowed : Bool}
    (hentries : table.entries = [(key, allowed)]) (path : String) (source replyto : Value) :
    table.lookup path source replyto =
      if key ∈ table.applicable path source replyto then some allowed else none := by
  have hget : ∀ k, table.get? k = if k = key then some allowed else none := by
    intro k
    rw [get?, hentries, lookup_cons_entry, List.lookup_nil]
  split
  case isTrue hkey =>
      have hfound := lookup_ne_none hkey (by rw [hget, if_pos rfl])
      obtain ⟨value, hvalue⟩ := Option.ne_none_iff_exists'.mp hfound
      obtain ⟨k, -, hk⟩ := List.exists_of_findSome?_eq_some hvalue
      rw [hget] at hk
      split at hk
      · rw [hvalue, ← hk]
      · cases hk
  case isFalse hkey =>
      refine List.findSome?_eq_none_iff.mpr fun k hk => ?_
      have hne : k ≠ key := fun heq => hkey (heq ▸ hk)
      rw [hget, if_neg hne]

/-- **A permission on a parent path covers every path below it that leads back to it.** Let the only
entry of a table be for anyone and anywhere on a path. Where the separator bounds this path, its
value decides every request for a path below it. Where it does not, nothing is found for a path
below it, and the default decides. -/
theorem allow_below {table : PermissionTable} (hseparator : table.separator ≠ "") {parent : String}
    {allowed : Bool} (hentries : table.entries = [(⟨parent, "*", "*"⟩, allowed)]) (child : String)
    (source replyto : Value) :
    (Bounds table.separator parent →
        (table.allow (parent ++ table.separator ++ child) source replyto).value = allowed) ∧
      (¬ Bounds table.separator parent →
        table.lookup (parent ++ table.separator ++ child) source replyto = none ∧
        (table.allow (parent ++ table.separator ++ child) source replyto).value = table.fallback) := by
  have hlookup := lookup_of_singleton hentries (parent ++ table.separator ++ child) source replyto
  simp only [mem_applicable_iff, mem_ancestors_below_iff hseparator] at hlookup
  rw [value_allow, hlookup]
  constructor
  · intro h
    rw [if_pos h, Option.getD_some]
  · intro h
    rw [if_neg h]
    exact ⟨rfl, rfl⟩

/-- Whoever may use `a::` may use what is below it, although the path ends in a separator. -/
theorem allow_below_twice :
    Bounds "::" "a::" ∧
      ((({} : PermissionTable).set "a::" true).allow ("a::" ++ "::" ++ "b") (.text "bob")
        (.text "#chan")).value = true := by
  have hbounds : Bounds "::" "a::" := by decide
  have hentries : (({} : PermissionTable).set "a::" true).entries = [(⟨"a::", "*", "*"⟩, true)] := by
    decide
  obtain ⟨hallowed, -⟩ := allow_below (by decide) hentries "b" (.text "bob") (.text "#chan")
  exact ⟨hbounds, hallowed hbounds⟩

/-- A permission on `a:` does not cover `a:::b`, which splits into `a` and `:b`. -/
theorem parent_not_found :
    let table := ({} : PermissionTable).set "a:" true
    table.separator = "::" ∧ table.entries = [(⟨"a:", "*", "*"⟩, true)] ∧
      (table.allow ("a:" ++ table.separator ++ "b") (.text "bob") (.text "#chan")).value ≠ true := by
  decide

end Switchboard.PermissionTable
