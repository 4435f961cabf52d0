import Switchboard.Template.Item

/-!
# Authorization paths

Every template is guarded by a path such as `karma::for`. It starts with the identity of the target, and goes on with
the first literal word of the template that is not the identity itself. An override puts a part of its own
between the two, and its marks reshape them: `:x` puts the word before the part, `x:` adds the second word at
the end, `!x` drops the identity and `x!` the word.

The path is a list of parts (`pathParts`), and the separator only joins them (`authPath`).
-/

namespace Switchboard

/-- The required literal words of a template other than the identity. -/
def pathWords (identity : String) (items : List Item) : List String :=
  items.filterMap fun item =>
    match item.kind with
    | .literal text => if item.optional || text == identity then none else some text
    | _ => none

/-- A text without the given character at its start, if it starts with it. -/
def dropMark? (mark : Char) : List Char → Option (List Char)
  | [] => none
  | c :: cs => if c == mark then some cs else none

/-- A text without the given character at its end, if it ends with it. -/
def dropEndMark? (mark : Char) (cs : List Char) : Option (List Char) :=
  if cs.getLast? == some mark then some cs.dropLast else none

/-- The parts of a path: what stands for the identity, what the override adds, and what stands for the words. -/
structure PathParts where
  front : List String
  extra : List Char
  back : List String
deriving DecidableEq, Repr, Inhabited

namespace PathParts

/-- The parts before any mark has been read. -/
def start (identity : String) (words : List String) (extra : List Char) : PathParts where
  front := if identity.isEmpty then [] else [identity]
  extra := extra
  back := words.take 1

/-- Reads a colon at the start: the first word goes to the front. -/
def merge (identity override : String) (p : PathParts) : Except TemplateCause PathParts :=
  match dropMark? ':' p.extra with
  | none => .ok p
  | some extra =>
    match p.back with
    | [] => .error (.noWordToMerge override)
    | word :: _ => .ok { front := [identity, word], extra, back := [] }

/-- Reads a colon at the end: the second word goes to the back. -/
def fold (words : List String) (p : PathParts) : PathParts :=
  match dropEndMark? ':' p.extra with
  | none => p
  | some extra => { p with extra, back := p.back ++ (words.drop 1).take 1 }

/-- Reads an exclamation mark at the start: the front goes. -/
def dropFront (p : PathParts) : PathParts :=
  match dropMark? '!' p.extra with
  | none => p
  | some extra => { p with front := [], extra }

/-- Reads an exclamation mark at the end: the back goes. -/
def dropBack (p : PathParts) : PathParts :=
  match dropEndMark? '!' p.extra with
  | none => p
  | some extra => { p with extra, back := [] }

/-- All parts in order. -/
def toList (p : PathParts) : List String :=
  p.front ++ (if p.extra.isEmpty then [] else [String.ofList p.extra]) ++ p.back

end PathParts

/-- The parts of the authorization path of a template; there is at least one. -/
def pathParts (identity : String) (items : List Item) (override : Option String) :
    Except TemplateCause (List String) := do
  let words := pathWords identity items
  let parts ← match override with
    | none => .ok (PathParts.start identity words [])
    | some text => do
      let merged ← (PathParts.start identity words text.toList).merge identity text
      .ok ((merged.fold words).dropFront.dropBack)
  match parts.toList with
  | [] => .error (.emptyPath override)
  | list => .ok list

/-- The authorization path of a template. -/
def authPath (identity : String) (items : List Item) (override : Option String) (separator : String) :
    Except TemplateCause String :=
  (pathParts identity items override).map (String.intercalate separator)

end Switchboard
