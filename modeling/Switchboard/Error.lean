import Switchboard.Template.Error

/-!
# Kinds of error

The errors that the library reports while templates and mappers are set up form a small hierarchy: each kind but the
first is a special case of another one.
-/

namespace Switchboard

/-- A kind of error. -/
inductive ErrorKind where
  | general
  | configuration
  | template
  | requirement
deriving DecidableEq, Repr, Inhabited

namespace ErrorKind

/-- The kind of which this one is a special case. -/
def parent? : ErrorKind → Option ErrorKind
  | general => none
  | configuration => some general
  | template => some configuration
  | requirement => some configuration

/-- A kind and all that it is a special case of, the most special first. -/
def lineage : ErrorKind → List ErrorKind
  | general => [general]
  | configuration => [configuration, general]
  | template => [template, configuration, general]
  | requirement => [requirement, configuration, general]

/-- The lineage follows the parents. -/
theorem lineage_eq (k : ErrorKind) : k.lineage = k :: (k.parent?.map lineage).getD [] := by
  cases k <;> rfl

end ErrorKind

end Switchboard
