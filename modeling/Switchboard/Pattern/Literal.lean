/-!
# Literal text in a pattern

Text becomes part of a pattern by a backslash before each character that could mean something else there: the
characters with a meaning of their own, and those that matter in a class or in verbose text. Letters,
digits and all else stand for themselves.
-/

namespace Switchboard.Pattern

/-- The characters that get a backslash in literal text. -/
def specialChars : List Char :=
  "()[]{}?*+-|^$\\.&~# \t\n\r\x0b\x0c".toList

/-- The pattern text of one character. -/
def literalChar (c : Char) : List Char := if specialChars.contains c then ['\\', c] else [c]

/-- The pattern text that matches exactly a given text. -/
def literal (cs : List Char) : List Char := cs.flatMap literalChar

@[simp] theorem literal_nil : literal [] = [] := rfl

@[simp] theorem literal_append (s t : List Char) : literal (s ++ t) = literal s ++ literal t := by
  simp [literal]

end Switchboard.Pattern
