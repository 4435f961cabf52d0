import Switchboard.Value.Basic

/-!
# Equality of values

Numbers are equal when they are the same number, whatever their kind: one, one point zero and the truth value true
are equal. Lists and tuples are never equal to each other. Dictionaries are equal when they have equal
keys with equal values, in any order. Nothing is equal to a floating point number that is no number.
-/

namespace Switchboard.Value

/-- The whole number that a value is equal to, if there is one. -/
def whole? : Value → Option Int
  | bool b => some (if b then 1 else 0)
  | int n => some n
  | float x => floatWhole? x
  | _ => none

mutual

/-- Whether two values are equal. -/
def equal : Value → Value → Bool
  | null, null => true
  | float x, float y => x == y
  | text s, text t => s == t
  | list vs, list ws => equalItems vs ws
  | tuple vs, tuple ws => equalItems vs ws
  | dict es, dict fs => es.length == fs.length && equalEntries es fs
  | pattern p, pattern q => p.same q
  | v, w =>
    match v.whole?, w.whole? with
    | some m, some n => m == n
    | _, _ => false

/-- Whether two lists have equal values in the same places. -/
def equalItems : List Value → List Value → Bool
  | [], [] => true
  | v :: vs, w :: ws => v.equal w && equalItems vs ws
  | _, _ => false

/-- Whether each key of the first dictionary has an equal value in the second. -/
def equalEntries : List (Value × Value) → List (Value × Value) → Bool
  | [], _ => true
  | (k, v) :: es, fs =>
    (match fs.find? fun f => k.equal f.1 with
      | some (_, w) => v.equal w
      | none => false) && equalEntries es fs

end

/-- Puts a value under a key of a dictionary: in the place of the value of an equal key, or else at the end. -/
def putEntry (entries : List (Value × Value)) (k v : Value) : List (Value × Value) :=
  match entries with
  | [] => [(k, v)]
  | (k', old) :: rest => if k'.equal k then (k', v) :: rest else (k', old) :: putEntry rest k v

/-- The dictionary that pairs make. Of equal keys the first one stays, with the last value. -/
def ofEntries (pairs : List (Value × Value)) : Value :=
  .dict (pairs.foldl (fun entries (k, v) => putEntry entries k v) [])

/-- The value of a dictionary under a text. -/
def entry? (entries : List (Value × Value)) (key : String) : Option Value :=
  (entries.find? fun e => e.1.equal (.text key)).map (·.2)

end Switchboard.Value

namespace Switchboard

/-- Whether two bindings have the same names with equal values, in any order. -/
def Bindings.equal (bs cs : Bindings) : Bool :=
  bs.length == cs.length && bs.all fun (n, v) =>
    match cs.get? n with
    | some w => v.equal w
    | none => false

end Switchboard
