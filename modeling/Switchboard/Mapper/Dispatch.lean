import Switchboard.Mapper.Basic
import Switchboard.Template.Recognize

/-!
# Dispatch

`Mapper.handle` hands a message to the first template that recognizes it and whose action the target has. The
oracle is asked once; when it refuses, the message is dropped without a look at the templates after. When no template
is left the fallback is tried, again only if the oracle allows it. `Mapper.explain` reports for every
template what became of the message, asks nobody and calls nothing. Both freeze the mapper.
-/

namespace Switchboard

/-- A request put to the oracle, and its answer. -/
structure Question where
  path : String
  source : Value
  replyto : Value
  allowed : Bool
deriving Repr, Inhabited

/-- A call of a method of the target. -/
structure Call where
  method : String
  message : Message
  arguments : Arguments
deriving Repr, Inhabited

/-- Why handling a message fails. -/
inductive DispatchError where
  /-- The handler failed with this text. -/
  | handler (text : String)
  | pick (error : Collector.PickError)
deriving DecidableEq, Repr, Inhabited

/-- The wording of the error. -/
def DispatchError.message : DispatchError → String
  | handler text => text
  | pick error => error.message

/-- What handling a message did, and whether a handler ran. -/
structure Dispatch where
  asked : List Question := []
  calls : List Call := []
  outcome : Except DispatchError Bool
deriving Inhabited

namespace Dispatch

/-- A dispatch that did nothing. -/
def nothing : Dispatch := { outcome := .ok false }

end Dispatch

namespace Mapper

/-- The reason why a recognized message is passed over: the target lacks the action. -/
def missingAction (m : Mapper) (t : Template) : String :=
  m.identity ++ " does not respond to action " ++ quoted t.action

/-- Calls a method. -/
def call (method : String) (handler : Handler) (message : Message) (arguments : Arguments)
    (asked : List Question) : Dispatch where
  asked := asked
  calls := [{ method, message, arguments }]
  outcome := match handler.failure with
    | some text => .error (.handler text)
    | none => .ok true

/-- Asks the oracle whether a message may use a path. -/
def ask (m : Mapper) (path : String) (message : Message) : Journal Question := do
  let allowed ← m.oracle.allow path message.source message.replyto
  return { path, source := message.source, replyto := message.replyto, allowed }

/-- Tries the fallback, after the reasons why no template took the message have been remarked. -/
def tryFallback (m : Mapper) (message : Message) (reasons : List (Template × String)) : Journal Dispatch := do
  reasons.forM fun (t, reason) => Journal.debug .mapper (t.shown ++ " => " ++ reason)
  Journal.debug .mapper "No handler found, trying fallback"
  match m.fallback with
  | none => return .nothing
  | some fallback =>
    if fallback.isEmpty then return .nothing
    else
      match m.target.handler? fallback with
      | none => return .nothing
      | some handler =>
        let question ← m.ask fallback message
        if question.allowed then return call fallback handler message [] [question]
        else return { Dispatch.nothing with asked := [question] }

/-- Runs a recognized template if the oracle allows it. -/
def runTemplate (m : Mapper) (message : Message) (t : Template) (handler : Handler) (arguments : Arguments) :
    Journal Dispatch := do
  Journal.debug .mapper ("Checking auth for " ++ t.path)
  let question ← m.ask t.path message
  if question.allowed then
    Journal.debug .mapper
      ("Template match found and auth'd: " ++ quoted t.action ++ " " ++ arguments.shown)
    return call t.action handler message arguments [question]
  else
    Journal.debug .mapper ("Auth failed for " ++ t.path)
    return { Dispatch.nothing with asked := [question] }

/-- Tries templates in order. `reasons` says why those before did not take the message. -/
def tryTemplates (m : Mapper) (message : Message) (reasons : List (Template × String)) :
    List Template → Journal Dispatch
  | [] => m.tryFallback message reasons
  | t :: ts => do
    match ← ExceptT.run (t.recognize message) with
    | .error error => return { outcome := .error (.pick error) }
    | .ok (.rejected failure) =>
      m.tryTemplates message (reasons ++ [(t, t.failureText message.text failure)]) ts
    | .ok (.recognized arguments) =>
      match m.target.handler? t.action with
      | none => m.tryTemplates message (reasons ++ [(t, m.missingAction t)]) ts
      | some handler => m.runTemplate message t handler arguments

/-- Hands a message to the target. The mapper is frozen afterwards. -/
def handle (m : Mapper) (message : Message) : Journal (Mapper × Dispatch) := do
  let dispatch ← m.freeze.tryTemplates message [] m.templates
  return (m.freeze, dispatch)

/-- Why a template does not take a message, or nothing if it would. -/
def verdict (m : Mapper) (message : Message) (t : Template) : Attempt Collector.PickError (Option String) := do
  match ← t.recognize message with
  | .rejected failure => return some (t.failureText message.text failure)
  | .recognized _ => return if m.respondsTo t.action then none else some (m.missingAction t)

/-- The verdicts of templates, in order. -/
def verdicts (m : Mapper) (message : Message) :
    List Template → Attempt Collector.PickError (List (Template × Option String))
  | [] => pure []
  | t :: ts => do
    let first ← m.verdict message t
    let rest ← m.verdicts message ts
    return (t, first) :: rest

/-- Says of every template why it does not take a message, or that it would. The mapper is frozen afterwards. -/
def explain (m : Mapper) (message : Message) :
    Mapper × Attempt Collector.PickError (List (Template × Option String)) :=
  (m.freeze, m.freeze.verdicts message m.templates)

end Mapper

end Switchboard
