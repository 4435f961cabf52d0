/-!
# Catalogue of public names

The names that a host program can ask the library for, each with the area that provides it.
-/

namespace Switchboard

/-- A part of the library that provides public names. -/
inductive Area where
  | errors
  | config
  | messages
  | permissions
  | parameters
  | templates
  | compiler
  | mapper
deriving DecidableEq, Repr, Inhabited

/-- The public names in alphabetical order, with their areas. -/
def publicNames : List (String × Area) := [
  ("AllowAll", .permissions),
  ("AuthOracle", .permissions),
  ("CollectorError", .errors),
  ("ConfigurationError", .errors),
  ("MapperConfig", .config),
  ("MatchResult", .templates),
  ("Message", .messages),
  ("MessageMapper", .mapper),
  ("MessageTemplate", .templates),
  ("MsgmapError", .errors),
  ("MultiWord", .parameters),
  ("PermissionTable", .permissions),
  ("TemplateError", .errors),
  ("TextMessage", .messages),
  ("compile_template", .compiler)]

/-- The area that provides a name. -/
def areaOf? (name : String) : Option Area := publicNames.lookup name

end Switchboard
