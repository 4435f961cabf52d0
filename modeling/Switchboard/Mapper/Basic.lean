import Switchboard.Mapper.Config
import Switchboard.Mapper.Target
import Switchboard.Template.Compile

/-!
# Mappers

A `Mapper` holds the templates of one target in the order in which they were mapped. Templates are added, and the
fallback is chosen, until the mapper is frozen, which the first message does.
-/

namespace Switchboard

/-- The templates of a target, and who decides about its commands. -/
structure Mapper where
  target : Target
  oracle : Oracle
  /-- The name of the target, the first part of its authorization paths. -/
  identity : String
  separator : String := "::"
  /-- The method to call when no template matches. -/
  fallback : Option String := some "usage"
  templates : List Template := []
  frozen : Bool := false
deriving Inhabited

/-- What is offered to decide requests: an oracle, or an object that is none. -/
inductive Decider where
  | oracle (o : Oracle)
  | object (shown : String)
deriving Inhabited

/-- Why a template is not added or a fallback not chosen. -/
inductive MapError where
  | compile (error : CompileError)
  /-- The mapper of the target is frozen. -/
  | frozen (identity : String)
deriving Repr, Inhabited

/-- The wording of the error. -/
def MapError.message : MapError → String
  | compile error => error.message
  | frozen identity => "Cannot map templates on " ++ quoted identity ++ " after dispatch has started."

namespace Mapper

/-- The identity of a mapper: the given name, or else the name of the target. It must be a text that is not
empty. -/
def identityOf? (target : Target) (name : Option Value) : Option String :=
  let found := match name with
    | some (.text s) => some s
    | some .null | none => target.name?
    | some _ => none
  found.filter (!·.isEmpty)

/-- A mapper without templates. -/
def make (target : Target) (decider : Decider) (name : Option Value := none) (config : Config := {}) :
    Except SetupError Mapper :=
  match identityOf? target name with
  | none => .error (.noIdentity target.shown)
  | some identity =>
    match decider with
    | .object shown => .error (.noOracle shown)
    | .oracle oracle =>
      .ok { target, oracle, identity, separator := config.separator, fallback := config.fallback }

/-- Allows no more changes. -/
def freeze (m : Mapper) : Mapper := { m with frozen := true }

/-- The number of templates. -/
def size (m : Mapper) : Nat := m.templates.length

/-- The template mapped last. -/
def last? (m : Mapper) : Option Template := m.templates.getLast?

/-- Whether the target has a method for an action. -/
def respondsTo (m : Mapper) (action : String) : Bool := (m.target.handler? action).isSome

/-- A mapper as reports show it. -/
def shown (m : Mapper) : String :=
  "<MessageMapper " ++ quoted m.identity ++ " templates=" ++ toString m.size ++ ">"

/-- Compiles a template and adds it after the others. Nothing changes when the template is wrong or the mapper is
frozen. -/
def map (m : Mapper) (template : Value) (options : TemplateOptions) : Attempt MapError (Mapper × Template) := do
  let compiled ← ExceptT.adapt MapError.compile
    (Template.compile m.identity template options m.separator .mapper)
  if !m.respondsTo compiled.action then
    Journal.debug .mapper
      (m.identity ++ " has no action " ++ quoted compiled.action ++ " for template " ++ quoted compiled.text
        ++ " yet")
  if m.frozen then throw (.frozen m.identity)
  return ({ m with templates := m.templates ++ [compiled] }, compiled)

/-- Chooses the method to call when no template matches. -/
def setFallback (m : Mapper) (fallback : Option String) : Except MapError Mapper :=
  if m.frozen then .error (.frozen m.identity) else .ok { m with fallback }

end Mapper

end Switchboard
