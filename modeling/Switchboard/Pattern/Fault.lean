import Switchboard.Text.Quoted

/-!
# Faults of a pattern

Why a text is not a pattern. A fault knows its cause and, but for one cause that concerns the finished
expression, its place in the text. `Fault.message` words it; where the pattern has several lines, line
and column are added.
-/

namespace Switchboard.Pattern

/-- What is wrong with a pattern. -/
inductive Cause where
  | trailingBackslash
  | badEscape (raw : String)
  | incompleteEscape (raw : String)
  | octalTooLarge (raw : String)
  | openGroup
  | noSuchGroup (index : Nat)
  | groupOfSameLookBehind
  | unterminatedClass
  | badRange (low high : String)
  | nothingToRepeat
  | multipleRepeat
  | repeatOrder
  | unexpectedEnd
  | unknownExtension (text : String)
  | missingGroupName
  | unterminatedGroupName (closing : Char)
  | badGroupName (name : String)
  | groupNameTaken (name : String) (new old : Nat)
  | unknownGroupName (name : String)
  | unterminatedComment
  | unterminatedGroup
  | unbalancedParenthesis
  | lateModes
  | localeMode
  | modesExclude
  | modesNotEnded
  | unknownMode
  | missingMode
  | missingColon
  | fixedModeOff
  | modeOnAndOff
  | unevenLookBehind
deriving DecidableEq, Repr, Inhabited

/-- The wording of a cause. -/
def Cause.text : Cause → String
  | trailingBackslash => "bad escape (end of pattern)"
  | badEscape raw => "bad escape " ++ raw
  | incompleteEscape raw => "incomplete escape " ++ raw
  | octalTooLarge raw => "octal escape value " ++ raw ++ " outside of range 0-0o377"
  | openGroup => "cannot refer to an open group"
  | noSuchGroup n => "invalid group reference " ++ toString n
  | groupOfSameLookBehind => "cannot refer to group defined in the same lookbehind subpattern"
  | unterminatedClass => "unterminated character set"
  | badRange low high => "bad character range " ++ low ++ "-" ++ high
  | nothingToRepeat => "nothing to repeat"
  | multipleRepeat => "multiple repeat"
  | repeatOrder => "min repeat greater than max repeat"
  | unexpectedEnd => "unexpected end of pattern"
  | unknownExtension text => "unknown extension ?" ++ text
  | missingGroupName => "missing group name"
  | unterminatedGroupName closing => "missing " ++ closing.toString ++ ", unterminated name"
  | badGroupName name => "bad character in group name " ++ quoted name
  | groupNameTaken name new old =>
    "redefinition of group name " ++ quoted name ++ " as group " ++ toString new
      ++ "; was group " ++ toString old
  | unknownGroupName name => "unknown group name " ++ quoted name
  | unterminatedComment => "missing ), unterminated comment"
  | unterminatedGroup => "missing ), unterminated subpattern"
  | unbalancedParenthesis => "unbalanced parenthesis"
  | lateModes => "global flags not at the start of the expression"
  | localeMode => "bad inline flags: cannot use 'L' flag with a str pattern"
  | modesExclude => "bad inline flags: flags 'a', 'u' and 'L' are incompatible"
  | modesNotEnded => "missing -, : or )"
  | unknownMode => "unknown flag"
  | missingMode => "missing flag"
  | missingColon => "missing :"
  | fixedModeOff => "bad inline flags: cannot turn off flags 'a', 'u' and 'L'"
  | modeOnAndOff => "bad inline flags: flag turned on and off"
  | unevenLookBehind => "look-behind requires fixed-width pattern"

/-- A cause and its place in the pattern. -/
structure Fault where
  cause : Cause
  place : Option Nat := none
deriving DecidableEq, Repr, Inhabited

/-- The number of characters after the last line feed before a place, counted from one. -/
def columnAt (source : List Char) (place : Nat) : Nat :=
  ((source.take place).reverse.takeWhile (· != '\n')).length + 1

/-- The wording of a fault in the pattern `source`. -/
def Fault.message (fault : Fault) (source : List Char) : String :=
  match fault.place with
  | none => fault.cause.text
  | some place =>
    let plain := fault.cause.text ++ " at position " ++ toString place
    if source.contains '\n' then
      plain ++ " (line " ++ toString ((source.take place).count '\n' + 1)
        ++ ", column " ++ toString (columnAt source place) ++ ")"
    else plain

end Switchboard.Pattern
