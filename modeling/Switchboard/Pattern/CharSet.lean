import Switchboard.Text.Blank
import Switchboard.Text.Letter
import Switchboard.Text.Word

/-!
# Character sets of a pattern

Everything in a pattern that matches one character, be it a letter, a dot, a shorthand such as `\d` or a
bracketed class, is a `CharSet`: a list of members, possibly negated as a whole, with the rule for letters and
the choice of tables in force where it stands. Ignoring case widens the single characters and the
ranges to all characters that are the same letter; it does nothing to the shorthands, which contain the two cases
of a letter alike. Negation is applied last.
-/

namespace Switchboard.Pattern

/-- The three kinds of character that have a shorthand. -/
inductive CharKind where
  | digit
  | blank
  | word
deriving DecidableEq, Repr, Inhabited

/-- Whether a character is of a kind, by the ASCII tables or by those of all scripts. -/
def CharKind.holds (ascii : Bool) : CharKind → Char → Bool
  | digit, c => if ascii then isAsciiDigitChar c else isDigitChar c
  | blank, c => if ascii then isAsciiBlank c else isBlank c
  | word, c => if ascii then isAsciiWordChar c else isWordChar c

/-- One member of a character set. -/
inductive ClassItem where
  | single (c : Char)
  | range (low high : Char)
  | kind (k : CharKind) (negated : Bool)
deriving DecidableEq, Repr, Inhabited

/-- When two characters count as equal. -/
inductive LetterRule where
  | exact
  | asciiCase
  | anyCase
deriving DecidableEq, Repr, Inhabited

/-- All characters that count as equal to this one, itself included. -/
def LetterRule.equals : LetterRule → Char → List Char
  | exact, c => [c]
  | asciiCase, c => asciiSameLetter c
  | anyCase, c => sameLetter c

/-- The representative by which two characters of a back reference are compared. -/
def LetterRule.lower : LetterRule → Char → Char
  | exact, c => c
  | asciiCase, c => asciiLowerChar c
  | anyCase, c => lowerChar c

/-- A set of characters as it stands in a pattern. -/
structure CharSet where
  items : List ClassItem
  negated : Bool := false
  letters : LetterRule := .exact
  ascii : Bool := false
deriving DecidableEq, Repr, Inhabited

/-- Whether a member accepts a character. -/
def ClassItem.holds (letters : LetterRule) (ascii : Bool) (c : Char) : ClassItem → Bool
  | single d => (letters.equals c).contains d
  | range low high => (letters.equals c).any fun d => decide (low.toNat ≤ d.toNat) && decide (d.toNat ≤ high.toNat)
  | kind k negated => k.holds ascii c != negated

/-- Whether the set contains a character. -/
def CharSet.contains (s : CharSet) (c : Char) : Bool :=
  s.items.any (·.holds s.letters s.ascii c) != s.negated

/-- The set of one character. -/
def CharSet.only (c : Char) : CharSet := { items := [.single c] }

/-- The set of all characters. -/
def CharSet.all : CharSet := { items := [], negated := true }

/-- The set of all characters but the line feed. -/
def CharSet.notLineFeed : CharSet := { items := [.single '\n'], negated := true }

@[simp] theorem CharSet.contains_only (c d : Char) : (CharSet.only c).contains d = (d == c) := by
  by_cases h : d = c
  · simp [CharSet.only, CharSet.contains, ClassItem.holds, LetterRule.equals, h]
  · simp [CharSet.only, CharSet.contains, ClassItem.holds, LetterRule.equals, h, Ne.symm h]

@[simp] theorem CharSet.contains_all (d : Char) : CharSet.all.contains d = true := rfl

end Switchboard.Pattern
