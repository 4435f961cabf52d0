import Switchboard.Template.Item

/-!
# The pattern text of a template

The pattern of a template is anchored at both ends. Blanks become `\s+`, a segment in brackets an optional group, and
each parameter one capturing group, itself optional when the parameter has a default. The blanks in front of a
segment or of an optional parameter belong into its group, so that they go when it goes; and blanks after the opening
bracket are not asked for a second time. Two flags carry this from lexeme to lexeme.
-/

namespace Switchboard

/-- The pattern text of a run of blanks. -/
def blanksSource : List Char := "\\s+".toList

/-- The pattern text of a parameter without requirement. -/
def freeSource (multi : Bool) : List Char := if multi then ".*".toList else "\\S+".toList

/-- The pattern text of what a parameter may be bound to. -/
def valueSource (requirements : Bindings) (slot : Slot) : Except FragmentError (List Char) :=
  let name := String.ofList slot.name
  match requirements.getD name with
  | .null => .ok (freeSource slot.multi)
  | rule => requirementFragment rule name

/-- The pattern text of a word, with the text for the blanks in front of it. -/
def wordSource (defaults requirements : Bindings) (lead word : List Char) : Except FragmentError (List Char) :=
  match Slot.ofWord? word with
  | none => .ok (lead ++ Pattern.literal word)
  | some slot => do
    let value ← valueSource requirements slot
    let group := lead ++ '(' :: value ++ [')']
    let whole := if defaults.has (String.ofList slot.name) then "(?:".toList ++ group ++ ")?".toList else group
    return whole ++ Pattern.literal slot.suffix

/-- The pattern text of lexemes. `space` says that blanks have been read that no pattern text stands for yet, `glued`
that the bracket just opened has taken those in front of it. -/
def lexemesSource (defaults requirements : Bindings) :
    (space glued : Bool) → List Lexeme → Except FragmentError (List Char)
  | _, _, [] => .ok []
  | _, glued, .blank _ :: ls => lexemesSource defaults requirements (!glued) glued ls
  | space, _, .opening :: ls =>
    (lexemesSource defaults requirements false space ls).map
      ("(?:".toList ++ (if space then blanksSource else []) ++ ·)
  | space, _, .closing :: ls => (lexemesSource defaults requirements space false ls).map (")?".toList ++ ·)
  | space, _, .word text :: ls => do
    let source ← wordSource defaults requirements (if space then blanksSource else []) text
    let rest ← lexemesSource defaults requirements false false ls
    return source ++ rest

/-- The pattern text of a template. -/
def patternSource (template : String) (defaults requirements : Bindings) : Except FragmentError (List Char) :=
  (lexemesSource defaults requirements false false (Lexeme.ofText template)).map fun body => '^' :: body ++ ['$']

end Switchboard
