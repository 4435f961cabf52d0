import Switchboard.Pattern.Fault
import Switchboard.Requirement.Fragment

/-!
# Errors of a template

Why a template cannot be compiled. An error of the template itself has a cause and, where the template is a text that
can be shown, that text. Errors of a requirement are passed on.
-/

namespace Switchboard

/-- What is wrong with a template. -/
inductive TemplateCause where
  | notText (kind : String)
  | unbalancedClosing
  | unbalancedOpening
  | noItems
  | dynamicStart
  | optionalStart
  | duplicateName (name : String)
  /-- The pattern of the template is none. -/
  | badPattern (source : String) (reason : String)
  /-- The pattern has another number of groups than the template has parameters. -/
  | groupCount (groups parameters : Nat)
  /-- An override merges a word that the template does not have. -/
  | noWordToMerge (override : String)
  /-- Nothing is left of the authorization path. -/
  | emptyPath (override : Option String)
deriving DecidableEq, Repr, Inhabited

/-- The wording of a cause, without the template. -/
def TemplateCause.text : TemplateCause → String
  | notText kind => "Template should be a string, got " ++ kind
  | unbalancedClosing => "Illegal template -- unbalanced ']'"
  | unbalancedOpening => "Illegal template -- unbalanced '['"
  | noItems => "Illegal template -- template is empty"
  | dynamicStart => "Illegal template -- first component cannot be dynamic"
  | optionalStart => "Illegal template -- first component cannot be optional"
  | duplicateName name => "Illegal template -- duplicate item " ++ name
  | badPattern source reason =>
    "Illegal template -- pattern " ++ quoted source ++ " doesn't compile (" ++ reason ++ ")"
  | groupCount groups parameters =>
    "Illegal template -- pattern has " ++ toString groups ++ " groups for " ++ toString parameters
      ++ " parameters"
  | noWordToMerge override =>
    "Auth path override " ++ quoted override ++ " merges a word the template doesn't have"
  | emptyPath override =>
    "Auth path override " ++ (match override with | some s => quoted s | none => "None")
      ++ " leaves an empty authorization path"

/-- A message about a template: the template follows, quoted, when there is one. -/
def aboutTemplate (message : String) (template : Option String) : String :=
  match template with
  | some text => message ++ ": " ++ quoted text
  | none => message

/-- Why a template cannot be compiled. -/
inductive CompileError where
  | template (cause : TemplateCause) (template : Option String)
  | requirement (error : RequirementError)
  /-- The text of a required pattern has, or seems to have, a group name that is never closed. -/
  | openGroupName
deriving Repr, Inhabited

namespace CompileError

/-- The wording of the error. -/
def message : CompileError → String
  | template cause text => aboutTemplate cause.text text
  | requirement error => error.message
  | openGroupName => FragmentError.openGroupName.message

/-- An error of a fragment as one of the template. -/
def ofFragment : FragmentError → CompileError
  | .requirement error => .requirement error
  | .openGroupName => .openGroupName

end CompileError

end Switchboard
