import Switchboard.Value.Basic

/-!
# Targets

The object whose methods handle messages. All that the library knows of a method is whether a call to it fails.
Members that cannot be called, and names that start with an underscore, are never actions.
-/

namespace Switchboard

/-- A method of a target. -/
structure Handler where
  /-- The text of the error that every call ends with, if calls fail. -/
  failure : Option String := none
deriving DecidableEq, Repr, Inhabited

/-- A member of a target. -/
inductive Member where
  | method (handler : Handler)
  | field (v : Value)
deriving Repr, Inhabited

/-- The object whose methods handle messages. -/
structure Target where
  /-- The members by name; of two with one name the first counts. -/
  members : List (String × Member)
  /-- The target as reports show it. -/
  shown : String
deriving Repr, Inhabited

namespace Target

/-- The text that the member called `name` holds. -/
def name? (target : Target) : Option String :=
  match target.members.lookup "name" with
  | some (.field (.text s)) => some s
  | _ => none

/-- The method of a name that is no private one. -/
def handler? (target : Target) (action : String) : Option Handler :=
  if action.toList.head? == some '_' then none
  else
    match target.members.lookup action with
    | some (.method handler) => some handler
    | _ => none

/-- No private name is an action. -/
theorem handler?_private (target : Target) {action : String} (h : action.toList.head? = some '_') :
    target.handler? action = none := by
  simp [handler?, h]

end Target

end Switchboard
