import Switchboard.Value.Basic

/-!
# Errors of a requirement

A requirement is what the text of a parameter has to look like: a pattern, a literal text, a pair of a pattern and
a group, or a dictionary with both. These are the reasons why a value is none of them.
-/

namespace Switchboard

/-- Why a value is no requirement. -/
inductive RequirementError where
  /-- A dictionary without an entry for the pattern. -/
  | noPatternKey (rule : Value)
  | emptySequence
  | unsupported (rule : Value)
  /-- What stands for the pattern is none. -/
  | notPattern (rule : Value)
  | indexNotWhole (rule : Value)
  /-- Neither a group to collect nor an index that says which. -/
  | nothingToCollect (rule : Value)
  | indexOutOfRange (rule : Value)
  /-- No requirement for the parameter `name`. -/
  | odd (rule : Value) (name : String)
  /-- A requirement for the parameter `name` that holds no pattern. -/
  | holdsNoPattern (rule : Value) (name : String)
deriving Repr, Inhabited

/-- The wording of an error of a requirement. -/
def RequirementError.message : RequirementError → String
  | noPatternKey rule => "Collector " ++ rule.shown ++ " doesn't have a 'regexp' key"
  | emptySequence => "Collector sequence is empty"
  | unsupported rule => "Unsupported requirement " ++ rule.shown ++ " of type " ++ rule.kindName
  | notPattern rule => "The regexp of collector " ++ rule.shown ++ " isn't a compiled pattern"
  | indexNotWhole rule => "The index of collector " ++ rule.shown ++ " is present but not an integer"
  | nothingToCollect rule => "The regexp of collector " ++ rule.shown ++ " has no captures and no index"
  | indexOutOfRange rule => "The index of collector " ++ rule.shown ++ " is out of range for its regexp"
  | odd rule name =>
    "Odd requirement " ++ rule.shown ++ " of type " ++ rule.kindName ++ " for parameter " ++ quoted name
  | holdsNoPattern rule name =>
    "Requirement " ++ rule.shown ++ " for parameter " ++ quoted name ++ " doesn't hold a compiled pattern"

end Switchboard
