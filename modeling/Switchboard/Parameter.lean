import Switchboard.MultiWord
import Switchboard.Requirement.Collector

/-!
# Parameters

A parameter is a named place of a template: `:name` stands for one word and `*name` for the rest of the message. It
is optional when it has a default or stands in brackets. A collector, if it has one, narrows the text that was
matched down to the value.
-/

namespace Switchboard

/-- A named place of a template. -/
structure Parameter where
  name : String
  /-- Whether it takes the rest of the message. -/
  multi : Bool := false
  optional : Bool := false
  default : Value := .null
  collector : Option Collector := none
deriving Repr, Inhabited

namespace Parameter

/-- The value for a matched text. A collector that picks nothing is reported. -/
def collect (p : Parameter) (text : String) : Attempt Collector.PickError (Option String) :=
  match p.collector with
  | none => pure (some text)
  | some collector => do
    let picked ← Attempt.ofExcept (collector.pick text)
    if picked.isNone then
      Journal.warn .template
        ("Collector " ++ collector.pattern.source ++ " for " ++ quoted p.name ++ " selected nothing from "
          ++ quoted text)
    return picked

/-- The index of a collector as reports show it. -/
def shownIndex : Option Int → String
  | none => "None"
  | some n => toString n

/-- A parameter as reports show it. -/
def shown (p : Parameter) : String :=
  let kind := if p.multi then "multi" else "single"
  let need := if p.optional then "optional" else "needed"
  let extra := match p.collector with
    | none => ""
    | some c => " regexp=" ++ c.pattern.source ++ " index=" ++ shownIndex c.index
  "<Parameter " ++ p.name ++ " " ++ kind ++ " " ++ need ++ extra ++ ">"

/-- Whether two parameters are the same in all respects. -/
def equal (p q : Parameter) : Bool :=
  p.name == q.name && p.multi == q.multi && p.optional == q.optional && p.default.equal q.default
    && match p.collector, q.collector with
      | none, none => true
      | some c, some d => c.equal d
      | _, _ => false

end Parameter

end Switchboard
