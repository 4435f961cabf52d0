import Switchboard.Text.Ranges

/-!
# Blanks, trimmed text and words

One notion of blank serves the whole library: the white space of all scripts together with the four ASCII
information separators. `trim` drops the blanks at both ends of a text, and `words` lists its maximal runs of
other characters. Messages, templates and the pattern class of blanks agree on this notion, which is why
the words of a message can be compared with what a pattern matched.
-/

namespace Switchboard

/-- Boundaries of the blank characters. -/
def blankBounds : List Nat := [
  9, 14, 28, 33, 133, 134, 160, 161, 5760, 5761, 8192, 8203, 8232, 8234, 8239, 8240, 8287, 8288, 12288, 12289]

/-- Whether a character separates words. -/
def isBlank (c : Char) : Bool := inBounds c.toNat blankBounds

/-- Whether a character is one of the six ASCII blanks. -/
def isAsciiBlank (c : Char) : Bool :=
  c == ' ' || (decide (9 ≤ c.toNat) && decide (c.toNat ≤ 13))

/-- Whether a text holds nothing but blanks, and holds at least one. -/
def isBlankText (cs : List Char) : Bool := !cs.isEmpty && cs.all isBlank

/-- A text without the blanks at its end. -/
def trimEnd (cs : List Char) : List Char := (cs.reverse.dropWhile isBlank).reverse

/-- A text without the blanks at its two ends. -/
def trim (cs : List Char) : List Char := trimEnd (cs.dropWhile isBlank)

/-- The maximal runs of characters that are not blank, in order. -/
def words : List Char → List (List Char)
  | [] => []
  | c :: cs =>
    if isBlank c then words cs
    else
      match cs.head?, words cs with
      | some d, w :: ws => if isBlank d then [c] :: w :: ws else (c :: w) :: ws
      | _, ws => [c] :: ws

/-- The words of a string, as strings. -/
def wordsOf (s : String) : List String := (words s.toList).map String.ofList

@[simp] theorem words_nil : words [] = [] := rfl

theorem words_cons_blank {c : Char} (cs : List Char) (h : isBlank c = true) : words (c :: cs) = words cs := by
  simp [words, h]

end Switchboard
