/-!
# Modes of a pattern

A pattern is read in a set of modes: whether letters match without regard to case, whether `^` and `$` also
stand for the ends of lines, whether the dot takes a line feed, whether blanks and comments are skipped, and
whether the character classes are those of ASCII. A pattern may set modes for the whole of itself at its start,
`(?i)`, or change them for one group, `(?i-s:…)`.
-/

namespace Switchboard.Pattern

/-- A set of modes. -/
structure Modes where
  ignoreCase : Bool := false
  multiline : Bool := false
  dotAll : Bool := false
  verbose : Bool := false
  ascii : Bool := false
deriving DecidableEq, Repr, Inhabited

namespace Modes

/-- The modes that are in either set. -/
def union (a b : Modes) : Modes where
  ignoreCase := a.ignoreCase || b.ignoreCase
  multiline := a.multiline || b.multiline
  dotAll := a.dotAll || b.dotAll
  verbose := a.verbose || b.verbose
  ascii := a.ascii || b.ascii

/-- The modes of the first set that are not in the second. -/
def without (a b : Modes) : Modes where
  ignoreCase := a.ignoreCase && !b.ignoreCase
  multiline := a.multiline && !b.multiline
  dotAll := a.dotAll && !b.dotAll
  verbose := a.verbose && !b.verbose
  ascii := a.ascii && !b.ascii

/-- Whether the two sets have a mode in common. -/
def meets (a b : Modes) : Bool :=
  (a.ignoreCase && b.ignoreCase) || (a.multiline && b.multiline) || (a.dotAll && b.dotAll)
    || (a.verbose && b.verbose) || (a.ascii && b.ascii)

/-- The mode that a letter stands for, and no mode for any other character. -/
def ofLetter? : Char → Option Modes
  | 'i' => some { ignoreCase := true }
  | 'm' => some { multiline := true }
  | 's' => some { dotAll := true }
  | 'x' => some { verbose := true }
  | 'a' => some { ascii := true }
  | _ => none

/-- The set of modes that letters stand for; other characters add nothing. -/
def ofLetters (letters : List Char) : Modes :=
  letters.foldl (fun m c => m.union ((ofLetter? c).getD {})) {}

/-- The letters of a set of modes, always in the same order. -/
def letters (m : Modes) : List Char :=
  (if m.ignoreCase then ['i'] else []) ++ (if m.multiline then ['m'] else [])
    ++ (if m.dotAll then ['s'] else []) ++ (if m.verbose then ['x'] else [])
    ++ (if m.ascii then ['a'] else [])

/-- Reading back the letters of a set gives the set. -/
theorem ofLetters_letters (m : Modes) : ofLetters m.letters = m := by
  rcases m with ⟨_ | _, _ | _, _ | _, _ | _, _ | _⟩ <;> rfl

end Modes

/-- What `(?on-off:…)` does to the modes of a group. -/
structure ModeChange where
  on : Modes := {}
  off : Modes := {}
  /-- Asks for the character classes of all scripts. -/
  unicode : Bool := false
deriving DecidableEq, Repr, Inhabited

/-- The modes inside a group, from the ones around it. Asking for either kind of character classes drops the
kind in force. -/
def ModeChange.apply (change : ModeChange) (outer : Modes) : Modes :=
  let base := if change.on.ascii || change.unicode then { outer with ascii := false } else outer
  (base.union change.on).without change.off

/-- A group without letters keeps the modes around it. -/
@[simp] theorem ModeChange.apply_empty (outer : Modes) : ({} : ModeChange).apply outer = outer := by
  rcases outer with ⟨_ | _, _ | _, _ | _, _ | _, _ | _⟩ <;> rfl

end Switchboard.Pattern
