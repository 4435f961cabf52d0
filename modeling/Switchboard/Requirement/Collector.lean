import Switchboard.Journal
import Switchboard.Requirement.Error
import Switchboard.Value.Equality

/-!
# Collectors

A requirement with groups also says which part of the matched text a parameter is bound to. A `Collector`
searches the text and picks one group: the one with its index, or else the first that took part in the match. An
index beyond the groups of the pattern cannot be picked; `Collector.ofRequirement` never makes such a collector.
-/

namespace Switchboard

/-- Picks one group out of a match of a pattern. -/
structure Collector where
  pattern : Pattern
  /-- The group to pick; none for the first group that took part. -/
  index : Option Int := none
deriving DecidableEq, Repr, Inhabited

namespace Collector

/-- The one thing that can go wrong in collecting: the pattern has no group with the index. -/
inductive PickError where
  | noSuchGroup
deriving DecidableEq, Repr, Inhabited

/-- The wording of the error. -/
def PickError.message : PickError → String
  | noSuchGroup => "no such group"

/-- The part of a text that is picked; none where nothing matches or the group took no part. -/
def pick (collector : Collector) (text : String) : Except PickError (Option String) :=
  match collector.pattern.search text with
  | none => .ok none
  | some found =>
    match collector.index with
    | some index =>
      if 0 ≤ index ∧ index ≤ collector.pattern.groups then
        .ok ((found.group? index.toNat).map String.ofList)
      else .error .noSuchGroup
    | none => .ok (((found.groups collector.pattern.groups).findSome? id).map String.ofList)

/-- Checks the parts of a collector that a rule gives. -/
def check (rule pattern index : Value) : Except RequirementError Collector :=
  match pattern with
  | .pattern p =>
    match index with
    | .null => if p.hasCaptures then .ok { pattern := p } else .error (.nothingToCollect rule)
    | .int n =>
      if 0 ≤ n ∧ n ≤ p.groups then .ok { pattern := p, index := some n } else .error (.indexOutOfRange rule)
    | _ => .error (.indexNotWhole rule)
  | _ => .error (.notPattern rule)

/-- The collector for a sequence: a pattern, and perhaps an index. -/
def ofSequence (rule : Value) (parts : List Value) : Attempt RequirementError (Option Collector) :=
  match parts with
  | [] => throw .emptySequence
  | [pattern] => Attempt.ofExcept ((check rule pattern .null).map some)
  | [pattern, index] => Attempt.ofExcept ((check rule pattern index).map some)
  | pattern :: index :: _ => do
    Journal.warn .template ("Collector " ++ rule.shown ++ " is too long, ignoring extra entries")
    Attempt.ofExcept ((check rule pattern index).map some)

/-- The collector for a requirement, if it calls for one: literal text never does, and a bare pattern only when it
has groups. -/
def ofRequirement (rule : Value) : Attempt RequirementError (Option Collector) :=
  match rule with
  | .null | .text _ => pure none
  | .pattern p => pure (if p.hasCaptures then some { pattern := p } else none)
  | .dict entries =>
    match Value.entry? entries "regexp" with
    | none => throw (.noPatternKey rule)
    | some pattern =>
      Attempt.ofExcept ((check rule pattern ((Value.entry? entries "index").getD .null)).map some)
  | .list parts | .tuple parts => ofSequence rule parts
  | _ => throw (.unsupported rule)

/-- Whether two collectors pick the same group of equal patterns. -/
def equal (a b : Collector) : Bool := a.pattern.same b.pattern && a.index == b.index

end Collector

end Switchboard
