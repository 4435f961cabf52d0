import Switchboard.Parameter
import Switchboard.Template.Item

/-!
# Templates

A compiled template: its text and items, its parameters, the pattern whose n-th group is the n-th parameter, the
action that a match calls, the authorization path that guards it, and its options.
-/

namespace Switchboard

/-- A compiled template. -/
structure Template where
  text : String
  items : List Item
  parameters : List Parameter
  pattern : Pattern
  action : String
  path : String
  /-- Whether the template is for public messages; only an explicit no keeps it away from them. -/
  inPublic : Option Bool := none
  /-- Whether the template is for private messages; only an explicit no keeps it away from them. -/
  inPrivate : Option Bool := none
  defaults : Bindings := []
  requirements : Bindings := []
  /-- Where remarks about messages go. -/
  channel : Channel := .template
deriving Repr, Inhabited

namespace Template

/-- A template as reports show it. -/
def shown (t : Template) : String :=
  let words := String.intercalate " " (t.items.map Item.value)
  let defaults := if t.defaults.isEmpty then "" else " || " ++ t.defaults.shown
  let requirements := if t.requirements.isEmpty then "" else " when " ++ t.requirements.shown
  "<MessageTemplate " ++ quoted words ++ defaults ++ requirements ++ ">"

/-- Whether two lists of parameters are the same. -/
def equalParameters : List Parameter → List Parameter → Bool
  | [], [] => true
  | p :: ps, q :: qs => p.equal q && equalParameters ps qs
  | _, _ => false

/-- Whether two templates are the same in all respects but for where their remarks go. -/
def equal (t u : Template) : Bool :=
  t.text == u.text && t.items == u.items && equalParameters t.parameters u.parameters
    && t.pattern.same u.pattern && t.action == u.action && t.path == u.path && t.inPublic == u.inPublic
    && t.inPrivate == u.inPrivate && t.defaults.equal u.defaults && t.requirements.equal u.requirements

end Template

end Switchboard
