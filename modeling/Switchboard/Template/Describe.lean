import Switchboard.Template.Basic

/-!
# Requirements in words

What a parameter has to look like, said in one sentence: whether it must be present, and what it must match or
be equal to.
-/

namespace Switchboard.Template

/-- A name without the sigils in front of it: a star, then a colon. -/
def bareName (name : String) : String :=
  let unstarred := match name.toList with
    | '*' :: cs => cs
    | cs => cs
  String.ofList (match unstarred with
    | ':' :: cs => cs
    | cs => cs)

/-- What a rule asks for, in words; the null value asks for nothing. -/
def demand? (parameter : Option Parameter) (rule : Value) : Option String :=
  match rule with
  | .null => none
  | .pattern p => some ("match " ++ quoted p.source)
  | .text s => some ("be equal to " ++ quoted s)
  | rule =>
    match parameter.bind (·.collector) with
    | some collector => some ("match " ++ quoted collector.pattern.source)
    | none => some ("satisfy " ++ rule.shown)

/-- What the parameter of a name has to look like. -/
def describe (t : Template) (name : String) : String :=
  let name := bareName name
  let parameter := t.parameters.find? (·.name == name)
  let present := parameter.any (!·.optional)
  match present, demand? parameter (t.requirements.getD name) with
  | true, some demand => name ++ " must be present and " ++ demand
  | true, none => name ++ " must be present"
  | false, some demand => name ++ " must " ++ demand
  | false, none => name ++ " has no requirements"

end Switchboard.Template
