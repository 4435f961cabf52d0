import Switchboard.Template.Basic
import Switchboard.Template.Path
import Switchboard.Template.Source

/-!
# Compiling templates

`compile` makes a template from its text and options. It reads the items, makes the parameters with their collectors,
reads the pattern, checks that the pattern has one group for each parameter, and works out the authorization
path. The first error in this order is the one reported.
-/

namespace Switchboard

/-- What may be said about a template besides its text. -/
structure TemplateOptions where
  /-- The method to call; none, or an empty name, for the first word of the template. -/
  action : Option String := none
  /-- The override of the authorization path. -/
  path : Option String := none
  /-- The override under its old name, which counts when there is no other. -/
  oldPath : Option String := none
  /-- The whole authorization path, instead of a derived one. -/
  fullPath : Option String := none
  inPublic : Option Bool := none
  inPrivate : Option Bool := none
  defaults : Bindings := []
  requirements : Bindings := []
deriving Repr, Inhabited

namespace Template

/-- The parameter of an item, if it is one. -/
def parameter? (options : TemplateOptions) (item : Item) : Attempt RequirementError (Option Parameter) :=
  match item.kind with
  | .parameter name multi => do
    let collector ← Collector.ofRequirement (options.requirements.getD name)
    return some {
      name
      multi
      optional := item.optional || options.defaults.has name
      default := options.defaults.getD name
      collector }
  | _ => pure none

/-- The parameters of items, in order. -/
def parametersOf (options : TemplateOptions) : List Item → Attempt RequirementError (List Parameter)
  | [] => pure []
  | item :: items => do
    let first ← parameter? options item
    let rest ← parametersOf options items
    return first.toList ++ rest

/-- A list as reports show it, from the texts of its members. -/
def shownList (texts : List String) : String := "[" ++ String.intercalate ", " texts ++ "]"

/-- The pattern of a template; its caret and its dollar also stand for the ends of lines. -/
def patternOf (text : String) (options : TemplateOptions) (parameters : List Parameter) :
    Except CompileError Pattern := do
  let source ← (patternSource text options.defaults options.requirements).mapError CompileError.ofFragment
  let shownSource := String.ofList source
  let pattern ← (Pattern.read shownSource { multiline := true }).mapError fun fault =>
    .template (.badPattern shownSource (fault.message source)) (some text)
  if pattern.groups == parameters.length then .ok pattern
  else .error (.template (.groupCount pattern.groups parameters.length) (some text))

/-- The override that counts: the old spelling only where there is no new one. -/
def overrideOf (options : TemplateOptions) : Option String :=
  match options.path with
  | some path => some path
  | none => options.oldPath

/-- The authorization path of a template: the full path if one is set, and otherwise the derived one. -/
def pathOf (identity separator : String) (items : List Item) (options : TemplateOptions) :
    Except CompileError String :=
  match options.fullPath with
  | some path => .ok path
  | none => (authPath identity items (overrideOf options) separator).mapError (.template · none)

/-- The action of a template: the one set, or else the first word. -/
def actionOf (items : List Item) (options : TemplateOptions) : String :=
  match options.action with
  | some action => if action.isEmpty then (items.head?.map Item.value).getD "" else action
  | none => (items.head?.map Item.value).getD ""

/-- Warns of options that had better not be used. -/
def warnOptions (channel : Channel) (subject : String) (options : TemplateOptions) : Journal Unit := do
  if options.oldPath.isSome then
    Journal.warn channel (subject ++ " uses old auth syntax, please upgrade")
  if options.fullPath.isSome then
    Journal.warn channel (subject ++ " sets full_auth_path, please don't do this")

/-- Compiles a template for the target named `identity`. -/
def compile (identity : String) (template : Value) (options : TemplateOptions) (separator : String := "::")
    (channel : Channel := .template) : Attempt CompileError Template := do
  let (text, items) ← Attempt.ofExcept (Item.ofValue template)
  let parameters ← ExceptT.adapt CompileError.requirement (parametersOf options items)
  Journal.debug channel ("Items: " ++ shownList (items.map Item.shown) ++ "; parameters: "
    ++ shownList (parameters.map Parameter.shown))
  let pattern ← Attempt.ofExcept (patternOf text options parameters)
  let subject := "Command " ++ quoted text ++ " in " ++ identity
  Journal.debug channel (subject ++ " will match using " ++ pattern.source)
  warnOptions channel subject options
  let path ← Attempt.ofExcept (pathOf identity separator items options)
  Journal.debug channel (subject ++ " will use auth path " ++ path)
  return {
    text
    items
    parameters
    pattern
    action := actionOf items options
    path
    inPublic := options.inPublic
    inPrivate := options.inPrivate
    defaults := options.defaults
    requirements := options.requirements
    channel }

end Template

end Switchboard
