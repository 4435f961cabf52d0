/-!
# Separated text

`splitOn` cuts a text at each occurrence of a separator, found from left to right and without overlap.
`String.intercalate` is its counterpart: joining the parts with the separator gives the text back.
-/

namespace Switchboard

/-- Puts a character in front of the first part. -/
def consPart (c : Char) : List (List Char) → List (List Char)
  | [] => [[c]]
  | part :: parts => (c :: part) :: parts

/-- The parts of a text, after passing over so many characters. -/
def splitFrom (separator : List Char) : Nat → List Char → List (List Char)
  | _, [] => [[]]
  | skip + 1, _ :: cs => splitFrom separator skip cs
  | 0, c :: cs =>
    if separator.isPrefixOf (c :: cs) then [] :: splitFrom separator (separator.length - 1) cs
    else consPart c (splitFrom separator 0 cs)

/-- The parts of a text between the occurrences of a separator that is not empty. -/
def splitOn (separator : String) (text : String) : List String :=
  (splitFrom separator.toList 0 text.toList).map String.ofList

end Switchboard
