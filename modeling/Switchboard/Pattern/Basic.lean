import Switchboard.Pattern.Assembly
import Switchboard.Pattern.Match

/-!
# Patterns

A `Pattern` is a pattern text together with what reading it gave: its modes, those set at its start included, its
expression, and the number of its groups. `Pattern.read` scans and assembles the text, and is the only way in which
the library makes patterns.

Two patterns are equal when text and modes are; what reading gave follows from these.
-/

namespace Switchboard

/-- A pattern that has been read. -/
structure Pattern where
  source : String
  modes : Pattern.Modes
  expr : Pattern.Expr
  groups : Nat
deriving DecidableEq, Repr, Inhabited

namespace Pattern

/-- Reads a pattern text in a set of modes, which the text may add to. -/
def read (source : String) (modes : Modes := {}) : Except Fault Pattern := do
  let spots := scan modes.verbose source.toList
  let assembled ← (Assembly.start modes).run spots
  let done ← assembled.finish
  return { source, modes := done.level.modes, expr := done.level.expr, groups := done.groups }

/-- Whether two patterns have the same text and the same modes. -/
def same (p q : Pattern) : Bool := p.source == q.source && p.modes == q.modes

/-- Whether a pattern has a group that captures. -/
def hasCaptures (p : Pattern) : Bool := decide (0 < p.groups)

/-- The leftmost match of a pattern in a text. -/
def search (p : Pattern) (text : String) : Option Match := p.expr.search text.toList

/-- The match of a pattern with a whole text. -/
def fullMatch (p : Pattern) (text : String) : Option Match := p.expr.fullMatch text.toList

/-- The greatest length of a pattern text as reports show it. -/
def shownLength : Nat := 200

/-- The names of modes in reports, in their order there. -/
def modeNames (m : Modes) : List String :=
  (if m.ignoreCase then ["re.IGNORECASE"] else []) ++ (if m.multiline then ["re.MULTILINE"] else [])
    ++ (if m.dotAll then ["re.DOTALL"] else []) ++ (if m.verbose then ["re.VERBOSE"] else [])
    ++ (if m.ascii then ["re.ASCII"] else [])

/-- A pattern as reports show it: its quoted text, cut when it is too long, and its modes. -/
def shown (p : Pattern) : String :=
  let text := String.ofList ((quotedChars p.source.toList).take shownLength)
  let modes := modeNames p.modes
  "re.compile(" ++ text ++ (if modes.isEmpty then "" else ", " ++ String.intercalate "|" modes) ++ ")"

end Pattern

end Switchboard
