import Switchboard.Template.Error
import Switchboard.Template.Lexeme
import Switchboard.Text.Word

/-!
# Items of a template

A word of a template is a literal, or a parameter: a sigil, `:` for one word or `*` for the rest of the
message, then a name, then perhaps a suffix such as the `?` of `:nick?`. Brackets make what stands in them
optional. `Item.ofText` reads the items and checks that the brackets are balanced, that the first item is a literal
outside of brackets, and that no name is used twice.
-/

namespace Switchboard

/-- A word of a template that names a parameter. -/
structure Slot where
  multi : Bool
  name : List Char
  suffix : List Char
deriving DecidableEq, Repr, Inhabited

namespace Slot

/-- The character that starts a parameter. -/
def sigil (multi : Bool) : Char := if multi then '*' else ':'

/-- Reads a word as a parameter: a sigil, then as many word characters as there are and at least one. -/
def ofWord? : List Char → Option Slot
  | c :: cs =>
    if c == ':' || c == '*' then
      match cs.takeWhile isWordChar with
      | [] => none
      | name => some { multi := c == '*', name, suffix := cs.dropWhile isWordChar }
    else none
  | [] => none

end Slot

/-- What an item is. -/
inductive ItemKind where
  | literal (text : String)
  | parameter (name : String) (multi : Bool)
  | suffix (text : String)
deriving DecidableEq, Repr, Inhabited

/-- An item of a template. -/
structure Item where
  kind : ItemKind
  optional : Bool
deriving DecidableEq, Repr, Inhabited

namespace Item

/-- The text of an item, as it stands in the template. -/
def value (item : Item) : String :=
  match item.kind with
  | .literal text => text
  | .parameter name multi => String.ofList [Slot.sigil multi] ++ name
  | .suffix text => text

/-- Whether an item is a parameter. -/
def isParameter (item : Item) : Bool :=
  match item.kind with
  | .parameter _ _ => true
  | _ => false

/-- Whether an item is the suffix of a parameter. -/
def isSuffix (item : Item) : Bool :=
  match item.kind with
  | .suffix _ => true
  | _ => false

/-- Whether an item is a parameter that takes the rest of the message. -/
def isMulti (item : Item) : Bool :=
  match item.kind with
  | .parameter _ multi => multi
  | _ => false

/-- The name of a parameter. -/
def name? (item : Item) : Option String :=
  match item.kind with
  | .parameter name _ => some name
  | _ => none

/-- The items of one word. -/
def ofWord (optional : Bool) (word : List Char) : List Item :=
  match Slot.ofWord? word with
  | none => [{ kind := .literal (String.ofList word), optional }]
  | some slot =>
    { kind := .parameter (String.ofList slot.name) slot.multi, optional } ::
      if slot.suffix.isEmpty then [] else [{ kind := .suffix (String.ofList slot.suffix), optional }]

/-- The items of lexemes that stand inside so many brackets. -/
def ofLexemes : Nat → List Lexeme → Except TemplateCause (List Item)
  | 0, [] => .ok []
  | _ + 1, [] => .error .unbalancedOpening
  | depth, .blank _ :: ls => ofLexemes depth ls
  | depth, .opening :: ls => ofLexemes (depth + 1) ls
  | 0, .closing :: _ => .error .unbalancedClosing
  | depth + 1, .closing :: ls => ofLexemes depth ls
  | depth, .word text :: ls => (ofLexemes depth ls).map (ofWord (decide (0 < depth)) text ++ ·)

/-- The first name that two of the items have. -/
def duplicate? (seen : List String) : List Item → Option String
  | [] => none
  | item :: items =>
    match item.name? with
    | none => duplicate? seen items
    | some name => if seen.contains name then some name else duplicate? (name :: seen) items

/-- Checks the items of a template as a whole. -/
def check (items : List Item) : Except TemplateCause (List Item) :=
  match items with
  | [] => .error .noItems
  | first :: _ =>
    if first.isParameter then .error .dynamicStart
    else if first.optional then .error .optionalStart
    else
      match duplicate? [] items with
      | some name => .error (.duplicateName name)
      | none => .ok items

/-- The items of a template text. -/
def ofText (template : String) : Except TemplateCause (List Item) :=
  ofLexemes 0 (Lexeme.ofText template) >>= check

/-- The items of a template, and the text that it is. -/
def ofValue (template : Value) : Except CompileError (String × List Item) :=
  match template with
  | .text s => ((ofText s).mapError fun cause => .template cause (some s)).map fun items => (s, items)
  | v => .error (.template (.notText v.kindName) none)

/-- A truth value as reports show it. -/
def shownBool (b : Bool) : String := (Value.bool b).shown

/-- An item as reports show it. -/
def shown (item : Item) : String :=
  "TemplateItem(value=" ++ quoted item.value ++ ", is_param=" ++ shownBool item.isParameter
    ++ ", name=" ++ (match item.name? with | some name => quoted name | none => "None")
    ++ ", multi=" ++ shownBool item.isMulti ++ ", optional=" ++ shownBool item.optional
    ++ ", suffix=" ++ shownBool item.isSuffix ++ ")"

end Item

end Switchboard
