import Switchboard.Cli.Run

/-!
# A sample module

The module that the program comes with, so that its commands have something to show: a keeper of karma with three
templates, as its `mapper` and from its `factory`, and one without templates as `empty`.
-/

namespace Switchboard.Cli

/-- The keeper of karma: it has methods for `karma`, `stats` and the fallback. -/
def sampleTarget : Target where
  members := [("name", .field (.text "karma")), ("karma", .method {}), ("stats", .method {}),
    ("usage", .method {})]
  shown := "<Karma>"

/-- The templates of the keeper of karma. -/
def sampleTemplates : List (String × TemplateOptions) := [
  ("karma for :key", {}),
  ("karmastats", { action := some "stats" }),
  ("karma [:key]", { defaults := [("key", .bool false)] })]

/-- A mapper with as many of some templates as can be mapped, without its remarks. -/
def mapAll (m : Mapper) (templates : List (String × TemplateOptions)) : Mapper :=
  templates.foldl (fun m (text, options) =>
    match (ExceptT.run (m.map (.text text) options)).value with
    | .ok (m, _) => m
    | .error _ => m) m

/-- The module called `sample`. -/
def sampleModule : HostModule where
  name := "sample"
  members :=
    match Mapper.make sampleTarget (.oracle .allowAll) with
    | .error _ => []
    | .ok m =>
      let karma := mapAll m sampleTemplates
      [("mapper", .mapper karma), ("factory", .factory (.mapper karma)), ("empty", .mapper m)]

end Switchboard.Cli
