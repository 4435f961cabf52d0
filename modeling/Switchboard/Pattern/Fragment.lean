import Switchboard.Pattern.Basic

/-!
# Fragments of a pattern

A template pattern is put together from fragments, and its groups are counted: the n-th group is the n-th
parameter. A pattern given for a parameter therefore has to lose its own groups, and the anchors that would
tie it to the whole text, before it can be a fragment.

* `withoutCaptures` makes every capturing group a plain one. Escapes and the characters of bracketed
  classes are passed over. A text with a group name that is never closed has no such form.
* `withoutAnchors` drops a caret at the start and a dollar at the end, unless a backslash escapes the dollar.
* `fragment` does both to the text of a pattern, drops the modes set at its start, and instead puts the modes of
  the pattern into a group around it.
-/

namespace Switchboard.Pattern

/-- What a character of a pattern text belongs to, as far as its groups are concerned. -/
inductive GroupScan where
  | outside
  | inClass
  | inName
deriving DecidableEq, Repr, Inhabited

/-- The text with its capturing groups made plain, or nothing when a group name is not closed. -/
def withoutCapturesFrom : GroupScan → List Char → Option (List Char)
  | .inName, [] => none
  | .inName, c :: cs => if c == '>' then withoutCapturesFrom .outside cs else withoutCapturesFrom .inName cs
  | _, [] => some []
  | scan, '\\' :: c :: cs => (withoutCapturesFrom scan cs).map ('\\' :: c :: ·)
  | .inClass, c :: cs => (withoutCapturesFrom (if c == ']' then .outside else .inClass) cs).map (c :: ·)
  | .outside, '[' :: '^' :: ']' :: cs => (withoutCapturesFrom .inClass cs).map ('[' :: '^' :: ']' :: ·)
  | .outside, '[' :: '^' :: cs => (withoutCapturesFrom .inClass cs).map ('[' :: '^' :: ·)
  | .outside, '[' :: ']' :: cs => (withoutCapturesFrom .inClass cs).map ('[' :: ']' :: ·)
  | .outside, '[' :: cs => (withoutCapturesFrom .inClass cs).map ('[' :: ·)
  | .outside, '(' :: '?' :: 'P' :: '<' :: cs => (withoutCapturesFrom .inName cs).map ('(' :: '?' :: ':' :: ·)
  | .outside, '(' :: '?' :: cs => (withoutCapturesFrom .outside cs).map ('(' :: '?' :: ·)
  | .outside, '(' :: cs => (withoutCapturesFrom .outside cs).map ('(' :: '?' :: ':' :: ·)
  | .outside, c :: cs => (withoutCapturesFrom .outside cs).map (c :: ·)

/-- A pattern text with its capturing groups made plain, or nothing when a group name is not closed. -/
def withoutCaptures (source : List Char) : Option (List Char) := withoutCapturesFrom .outside source

/-- A text without the caret at its start. -/
def withoutCaret : List Char → List Char
  | '^' :: cs => cs
  | cs => cs

/-- The number of backslashes at the front of a text. -/
def leadingBackslashes (cs : List Char) : Nat := (cs.takeWhile (· == '\\')).length

/-- A text without the dollar at its end; an odd number of backslashes before the dollar escapes it. -/
def withoutDollar (source : List Char) : List Char :=
  match source.reverse with
  | '$' :: backwards => if leadingBackslashes backwards % 2 == 1 then source else backwards.reverse
  | _ => source

/-- A pattern text without the anchors at its two ends. -/
def withoutAnchors (source : List Char) : List Char := withoutDollar (withoutCaret source)

/-- Whether a character may stand in a group that sets modes for the whole pattern. -/
def isModeLetter (c : Char) : Bool := c == 'u' || c == 'L' || (Modes.ofLetter? c).isSome

/-- The text after a group such as `(?i)` at its front. -/
def afterModes? : List Char → Option (List Char)
  | '(' :: '?' :: cs =>
    match cs.takeWhile isModeLetter, cs.dropWhile isModeLetter with
    | _ :: _, ')' :: rest => some rest
    | _, _ => none
  | _ => none

/-- A text without the groups at its front that set modes for the whole pattern. The first argument bounds their
number. -/
def withoutModesFrom : Nat → List Char → List Char
  | 0, cs => cs
  | n + 1, cs =>
    match afterModes? cs with
    | some rest => withoutModesFrom n rest
    | none => cs

/-- A text without the groups at its front that set modes for the whole pattern. -/
def withoutModes (source : List Char) : List Char := withoutModesFrom source.length source

/-- The pattern as part of another one: without groups of its own, free at both ends, and in its own modes. -/
def fragment (p : Pattern) : Option (List Char) :=
  (withoutCaptures p.source.toList).map fun plain =>
    let body := withoutAnchors (withoutModes plain)
    match p.modes.letters with
    | [] => body
    | letters => '(' :: '?' :: letters ++ ':' :: body ++ [')']

end Switchboard.Pattern
