import Switchboard.Pattern.Fragment
import Switchboard.Pattern.Literal
import Switchboard.Requirement.Error
import Switchboard.Value.Equality

/-!
# The pattern text of a requirement

What a requirement contributes to the pattern of a template: a pattern its fragment, a literal text itself, a
pair or a dictionary the fragment of the pattern that it holds.
-/

namespace Switchboard

/-- Why a requirement has no pattern text. -/
inductive FragmentError where
  | requirement (error : RequirementError)
  /-- The text of the pattern has, or seems to have, a group name that is never closed. -/
  | openGroupName
deriving Repr, Inhabited

/-- The wording of the error. -/
def FragmentError.message : FragmentError → String
  | requirement error => error.message
  | openGroupName => "substring not found"

/-- The fragment of a pattern. -/
def patternFragment (p : Pattern) : Except FragmentError (List Char) :=
  match p.fragment with
  | some text => .ok text
  | none => .error .openGroupName

/-- The fragment of the pattern that a requirement for `name` holds. -/
def heldFragment (rule : Value) (name : String) (held : Value) : Except FragmentError (List Char) :=
  match held with
  | .pattern p => patternFragment p
  | _ => .error (.requirement (.holdsNoPattern rule name))

/-- The pattern text of the requirement for the parameter `name`. -/
def requirementFragment (rule : Value) (name : String) : Except FragmentError (List Char) :=
  match rule with
  | .pattern p => patternFragment p
  | .text s => .ok (Pattern.literal s.toList)
  | .dict entries => heldFragment rule name ((Value.entry? entries "regexp").getD .null)
  | .list (first :: _) | .tuple (first :: _) => heldFragment rule name first
  | _ => .error (.requirement (.odd rule name))

end Switchboard
