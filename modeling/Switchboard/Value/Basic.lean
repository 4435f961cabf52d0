import Switchboard.Decimal
import Switchboard.Pattern.Basic

/-!
# Values

Defaults and requirements are given by the host program as values of many kinds. A `Value` is such a value;
dictionaries keep the order in which their keys came in. `Value.shown` is how a report writes a value, and
`Value.plain` how it reads as text.
-/

namespace Switchboard

/-- A value of the host program. -/
inductive Value where
  | null
  | bool (b : Bool)
  | int (n : Int)
  | float (x : Float)
  | text (s : String)
  | list (vs : List Value)
  | tuple (vs : List Value)
  | dict (entries : List (Value × Value))
  | pattern (p : Pattern)
deriving Repr, Inhabited

namespace Value

/-- The name of the kind of a value. -/
def kindName : Value → String
  | null => "NoneType"
  | bool _ => "bool"
  | int _ => "int"
  | float _ => "float"
  | text _ => "str"
  | list _ => "list"
  | tuple _ => "tuple"
  | dict _ => "dict"
  | pattern _ => "Pattern"

/-- Whether a value is the null value. -/
def isNull : Value → Bool
  | null => true
  | _ => false

mutual

/-- A value as reports show it. -/
def shown : Value → String
  | null => "None"
  | bool b => if b then "True" else "False"
  | int n => toString n
  | float x => floatText x
  | text s => quoted s
  | list vs => "[" ++ shownItems vs ++ "]"
  | tuple [v] => "(" ++ v.shown ++ ",)"
  | tuple vs => "(" ++ shownItems vs ++ ")"
  | dict entries => "\x7b" ++ shownEntries entries ++ "\x7d"
  | pattern p => p.shown

/-- Values one after the other. -/
def shownItems : List Value → String
  | [] => ""
  | [v] => v.shown
  | v :: vs => v.shown ++ ", " ++ shownItems vs

/-- Keys with their values one after the other. -/
def shownEntries : List (Value × Value) → String
  | [] => ""
  | [(k, v)] => k.shown ++ ": " ++ v.shown
  | (k, v) :: entries => k.shown ++ ": " ++ v.shown ++ ", " ++ shownEntries entries

end

/-- A value read as text: a text is itself, all else is as reports show it. -/
def plain : Value → String
  | text s => s
  | v => v.shown

end Value

/-- Values under names, in the order of the names. -/
abbrev Bindings := List (String × Value)

namespace Bindings

/-- The value under a name. -/
def get? (bs : Bindings) (name : String) : Option Value := bs.lookup name

/-- The value under a name, null when there is none. -/
def getD (bs : Bindings) (name : String) : Value := (bs.get? name).getD .null

/-- Whether there is a value under a name. -/
def has (bs : Bindings) (name : String) : Bool := (bs.get? name).isSome

/-- Puts a value under a name: in the place of the earlier one, or else at the end. -/
def put (bs : Bindings) (name : String) (v : Value) : Bindings :=
  match bs with
  | [] => [(name, v)]
  | (n, old) :: rest => if n == name then (n, v) :: rest else (n, old) :: put rest name v

/-- The bindings that pairs make, the last value of a name counting. -/
def ofPairs (pairs : List (String × Value)) : Bindings := pairs.foldl (fun bs (n, v) => bs.put n v) []

/-- Bindings as reports show them. -/
def shown (bs : Bindings) : String := (Value.dict (bs.map fun (n, v) => (.text n, v))).shown

end Bindings

end Switchboard
