import Switchboard.Message
import Switchboard.Template.Basic

/-!
# Recognizing messages

`Template.recognize` holds a message against a template. Either the message is recognized and the parameters are
bound, or there is one failure: the template is not for messages of this sort, its pattern matches nowhere,
or the leftmost match is not the whole message. An absent parameter is bound to its default; a default of
false only says that the parameter may be absent.
-/

namespace Switchboard

/-- Why a message is not recognized. -/
inductive Failure where
  | notForPrivate
  | notForPublic
  | noMatch
  /-- The leftmost match is only a part of the message. -/
  | partialMatch (found : String)
deriving DecidableEq, Repr, Inhabited

/-- What came of holding a message against a template. -/
inductive Recognition where
  | recognized (arguments : Arguments)
  | rejected (failure : Failure)
deriving Repr, Inhabited

namespace Recognition

/-- Why a message is not recognized. -/
def failure? : Recognition → Option Failure
  | recognized _ => none
  | rejected failure => some failure

end Recognition

namespace Template

/-- The wording of a failure. -/
def failureText (t : Template) (text : String) : Failure → String
  | .notForPrivate => "template " ++ quoted t.text ++ " is not configured for private messages"
  | .notForPublic => "template " ++ quoted t.text ++ " is not configured for public messages"
  | .noMatch => quoted text ++ " doesn't match " ++ quoted t.text ++ " (" ++ t.pattern.source ++ ")"
  | .partialMatch found =>
    quoted text ++ " only matches " ++ quoted t.text ++ " (" ++ t.pattern.source ++ ") partially: "
      ++ quoted found

/-- The failure of a message that the template is not meant for. -/
def refusal? (t : Template) (isPrivate : Bool) : Option Failure :=
  if t.inPrivate == some false && isPrivate then some .notForPrivate
  else if t.inPublic == some false && !isPrivate then some .notForPublic
  else none

/-- The argument of a parameter that took part in the match, or not. -/
def bind (t : Template) (p : Parameter) (matched : Option String) :
    Attempt Collector.PickError (Option Argument) :=
  match p.multi, matched with
  | true, some text => pure (some (.words (.ofText text)))
  | true, none => do
    let words ← MultiWord.ofDefault p.default p.name
    return some (.words words)
  | false, some text => do
    let picked ← p.collect text
    return picked.map (.value ∘ .text)
  | false, none => do
    if !t.defaults.has p.name then
      Journal.warn t.channel ("No default value for parameter " ++ quoted p.name ++ " specified")
    return match p.default with
      | .null | .bool false => none
      | v => some (.value v)

/-- The arguments of parameters, from what the groups have captured. A parameter without a value is left out, and
one for which there is no group at all cannot be bound. -/
def bindAll (t : Template) : List Parameter → List (Option String) → Attempt Collector.PickError Arguments
  | [], _ => pure []
  | _ :: _, [] => throw .noSuchGroup
  | p :: ps, matched :: more => do
    let argument ← t.bind p matched
    let rest ← t.bindAll ps more
    return (argument.map fun a => (p.name, a)).toList ++ rest

/-- The texts of the groups of a match. -/
def matchedTexts (t : Template) (found : Pattern.Match) : List (Option String) :=
  (found.groups t.pattern.groups).map (·.map String.ofList)

/-- The texts of groups as reports show them. -/
def shownTexts (texts : List (Option String)) : String :=
  (Value.tuple (texts.map fun t => match t with | some s => .text s | none => .null)).shown

/-- Holds a message against a template. -/
def recognize (t : Template) (message : Message) : Attempt Collector.PickError Recognition := do
  Journal.debug t.channel ("Testing " ++ quoted message.text ++ " against " ++ t.shown)
  match t.refusal? message.isPrivate with
  | some failure => return .rejected failure
  | none =>
    match t.pattern.search message.text with
    | none => return .rejected .noMatch
    | some found =>
      if String.ofList found.text == message.text then
        let texts := t.matchedTexts found
        Journal.debug t.channel
          (quoted message.text ++ " matched " ++ t.pattern.source ++ " with " ++ shownTexts texts)
        return .recognized (← t.bindAll t.parameters texts)
      else return .rejected (.partialMatch (String.ofList found.text))

end Template

end Switchboard
