import Switchboard.Journal
import Switchboard.Text.Separated
import Switchboard.Value.Basic

/-!
# Permissions

A `PermissionTable` holds permissions for a path, a user and a channel, where a star stands for anyone or
anywhere. A request is decided by the longest part of its path, cut at separators from the end, for which
an entry applies; for one path an entry for the user comes before one for anyone, and then an entry for the
channel before one for anywhere. Where no entry applies the default of the table decides.

An `Oracle` is anything that decides requests; it may keep a journal.
-/

namespace Switchboard

/-- What a permission is for. -/
structure PermissionKey where
  path : String
  user : String
  channel : String
deriving DecidableEq, Repr, Inhabited

/-- The user or channel that stands for all. -/
def anyone : Value := .text "*"

/-- Permissions by path, user and channel. -/
structure PermissionTable where
  fallback : Bool := false
  separator : String := "::"
  entries : List (PermissionKey × Bool) := []
deriving DecidableEq, Repr, Inhabited

namespace PermissionTable

/-- The key of a permission; user and channel count as texts. -/
def keyOf (path : String) (user channel : Value) : PermissionKey :=
  { path, user := user.plain, channel := channel.plain }

/-- Puts a permission into entries: in the place of the earlier one for the key, or else at the end. -/
def putEntry (key : PermissionKey) (allowed : Bool) : List (PermissionKey × Bool) → List (PermissionKey × Bool)
  | [] => [(key, allowed)]
  | (k, old) :: rest => if k == key then (k, allowed) :: rest else (k, old) :: putEntry key allowed rest

/-- Grants or denies a path to a user on a channel. -/
def set (table : PermissionTable) (path : String) (allowed : Bool) (user : Value := anyone)
    (channel : Value := anyone) : PermissionTable :=
  { table with entries := putEntry (keyOf path user channel) allowed table.entries }

/-- Removes the permission for a path, a user and a channel. -/
def reset (table : PermissionTable) (path : String) (user : Value := anyone) (channel : Value := anyone) :
    PermissionTable :=
  { table with entries := table.entries.filter (·.1 != keyOf path user channel) }

/-- The number of permissions. -/
def size (table : PermissionTable) : Nat := table.entries.length

/-- The permission for a key. -/
def get? (table : PermissionTable) (key : PermissionKey) : Option Bool := table.entries.lookup key

/-- A path and what is left of it when parts are cut off at its end, the whole path first. -/
def ancestors (table : PermissionTable) (path : String) : List String :=
  let parts := splitOn table.separator path
  (List.range parts.length).reverse.map fun i => String.intercalate table.separator (parts.take (i + 1))

/-- Who and where an entry may be for to apply to a request, the most specific first. -/
def candidates (source replyto : Value) : List (String × String) :=
  let user := source.plain
  let channel := replyto.plain
  let any := anyone.plain
  [(user, channel), (user, any), (any, channel), (any, any)]

/-- The keys that apply to a request, the most specific first. -/
def applicable (table : PermissionTable) (path : String) (source replyto : Value) : List PermissionKey :=
  (table.ancestors path).flatMap fun path =>
    (candidates source replyto).map fun (user, channel) => { path, user, channel }

/-- The most specific permission for a request, if there is one. -/
def lookup (table : PermissionTable) (path : String) (source replyto : Value) : Option Bool :=
  (table.applicable path source replyto).findSome? table.get?

/-- Decides a request. That the default had to decide is remarked. -/
def allow (table : PermissionTable) (path : String) (source replyto : Value) : Journal Bool :=
  match table.lookup path source replyto with
  | some allowed => pure allowed
  | none => do
    Journal.debug .permission
      ("No permission for " ++ path ++ ", using default " ++ (Value.bool table.fallback).shown)
    return table.fallback

end PermissionTable

/-- Decides who may do what where. -/
structure Oracle where
  allow : (path : String) → (source replyto : Value) → Journal Bool

namespace Oracle

/-- The oracle that allows everything. -/
def allowAll : Oracle := ⟨fun _ _ _ => pure true⟩

/-- The oracle that allows everything but the paths of a list. -/
def allowAllBut (paths : List String) : Oracle := ⟨fun path _ _ => pure (!paths.contains path)⟩

/-- The oracle that asks a table. -/
def ofTable (table : PermissionTable) : Oracle := ⟨table.allow⟩

instance : Inhabited Oracle := ⟨allowAll⟩

end Oracle

end Switchboard
