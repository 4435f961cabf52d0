import Switchboard.Journal
import Switchboard.Text.Blank
import Switchboard.Value.Basic

/-!
# Values of several words

A parameter that takes the rest of a message is bound to a `MultiWord`: the text that was matched together with
its words. When such a parameter is absent its default is made into one, and a default that has no sensible
reading is reported and taken as empty.
-/

namespace Switchboard

/-- A text and the words that it is seen as. -/
structure MultiWord where
  words : List String
  text : String
deriving DecidableEq, Repr, Inhabited

namespace MultiWord

/-- No words at all. -/
def empty : MultiWord := { words := [], text := "" }

/-- A matched text and its words. -/
def ofText (text : String) : MultiWord := { words := wordsOf text, text }

/-- The value of an absent parameter, from its default. -/
def ofDefault (default : Value) (name : String) : Journal MultiWord :=
  match default with
  | .text s => pure (ofText s)
  | .null | .bool false => pure empty
  | .list vs | .tuple vs =>
    let words := vs.map Value.plain
    pure { words, text := String.intercalate " " words }
  | v => do
    Journal.warn .template ("Unmanageable default " ++ v.shown ++ " detected for *" ++ name ++ ", using []")
    return empty

/-- The number of words. -/
def size (m : MultiWord) : Nat := m.words.length

/-- The word at a position. A negative position counts from the end. -/
def at? (m : MultiWord) (position : Int) : Option String :=
  let place := if position < 0 then position + Int.ofNat m.size else position
  if place < 0 then none else m.words[place.toNat]?

/-- A value of several words as reports show it. -/
def shown (m : MultiWord) : String :=
  "MultiWord(words=" ++ (Value.tuple (m.words.map .text)).shown ++ ", text=" ++ quoted m.text ++ ")"

end MultiWord

/-- What a parameter is bound to. -/
inductive Argument where
  | value (v : Value)
  | words (m : MultiWord)
deriving Repr, Inhabited

namespace Argument

/-- An argument as reports show it. -/
def shown : Argument → String
  | value v => v.shown
  | words m => m.shown

end Argument

/-- The arguments of a message under the names of their parameters, in the order of the template. -/
abbrev Arguments := List (String × Argument)

/-- Arguments as reports show them. -/
def Arguments.shown (args : Arguments) : String :=
  "\x7b" ++ String.intercalate ", " (args.map fun (name, a) => quoted name ++ ": " ++ a.shown) ++ "\x7d"

end Switchboard
