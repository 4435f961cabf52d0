import Switchboard.Permission
import Switchboard.Text.Blank
import Switchboard.Text.Identifier
import Switchboard.Text.Quoted

/-!
# Configuration

How a mapper is set up: the method to call when no template matches, and what joins the parts of an
authorization path. Both are checked once, when the configuration is made.
-/

namespace Switchboard

/-- Why something cannot be set up. -/
inductive SetupError where
  | blankSeparator (separator : String)
  | fallbackNoName (fallback : String)
  /-- A permission table with an empty separator. -/
  | emptySeparator
  /-- The target, as reports show it, has no name. -/
  | noIdentity (target : String)
  /-- The object, as reports show it, cannot decide requests. -/
  | noOracle (object : String)
deriving DecidableEq, Repr, Inhabited

/-- The wording of the error. -/
def SetupError.message : SetupError → String
  | blankSeparator separator =>
    "Authorization path separator must be a non-blank string, got " ++ quoted separator
  | fallbackNoName fallback => "Fallback must be a method name, got " ++ quoted fallback
  | emptySeparator => "PermissionTable separator must be a non-empty string"
  | noIdentity target =>
    "Can't find auth base in " ++ target ++ ": pass name= or give it a 'name' attribute"
  | noOracle object => object ++ " is not an authorization oracle (no allow() method)"

/-- How a mapper is set up. -/
structure Config where
  /-- The method to call when no template matches. -/
  fallback : Option String := some "usage"
  /-- What joins the parts of an authorization path. -/
  separator : String := "::"
deriving DecidableEq, Repr, Inhabited

/-- A configuration, checked: the separator holds more than blanks, and the fallback is an identifier. -/
def Config.make (fallback : Option String := some "usage") (separator : String := "::") :
    Except SetupError Config :=
  if separator.toList.all isBlank then .error (.blankSeparator separator)
  else
    match fallback with
    | some name => if isIdentifier name then .ok { fallback, separator } else .error (.fallbackNoName name)
    | none => .ok { fallback, separator }

/-- An empty permission table, checked: the separator is not empty. -/
def PermissionTable.make (fallback : Bool := false) (separator : String := "::") :
    Except SetupError PermissionTable :=
  if separator.isEmpty then .error .emptySeparator else .ok { fallback, separator }

end Switchboard
