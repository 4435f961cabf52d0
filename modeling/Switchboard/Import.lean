import Switchboard.Mapper.Basic
import Switchboard.Text.Separated

/-!
# Finding a mapper by an import string

The command line names a mapper as `module:member`, the member being `mapper` unless it is given. What is found
may be the mapper itself, something that has it as its own member `mapper`, or a factory for either. A host
module is given by its name and its members; no other module can be imported, and it has no submodules.
-/

namespace Switchboard

/-- An object of a host module. -/
inductive HostObject where
  | mapper (m : Mapper)
  /-- An instance of a class `Holder`, perhaps with a member `mapper`. -/
  | holder (inner : Option HostObject)
  /-- A class, perhaps with a member `mapper`. -/
  | kind (inner : Option HostObject)
  /-- A function that returns an object. -/
  | factory (product : HostObject)
  /-- A function that fails with a text. -/
  | broken (failure : String)
  | value (v : Value)
deriving Inhabited

namespace HostObject

/-- The name of the kind of an object. -/
def kindName : HostObject → String
  | mapper _ => "MessageMapper"
  | holder _ => "Holder"
  | kind _ => "type"
  | factory _ | broken _ => "function"
  | value v => v.kindName

/-- The member `mapper` of an object that is no mapper itself, or else the object. -/
def unwrap : HostObject → HostObject
  | holder (some inner) | kind (some inner) => inner
  | object => object

end HostObject

/-- A module that can be imported. -/
structure HostModule where
  name : String
  members : List (String × HostObject)
deriving Inhabited

/-- Why an import string leads to no mapper. -/
inductive ResolveError where
  | emptyModuleName
  /-- A module name that starts with a dot. -/
  | relativeName (name : String)
  | noModule (name : String)
  | noPackage (name parent : String)
  | noMember (host member : String)
  | factoryFailed (importString failure : String)
  | noMapper (importString kind : String)
deriving DecidableEq, Repr, Inhabited

/-- The wording of the error. A complaint about a missing member has the names as they are, not quoted. -/
def ResolveError.message : ResolveError → String
  | emptyModuleName => "Empty module name"
  | relativeName name => "the 'package' argument is required to perform a relative import for " ++ quoted name
  | noModule name => "No module named " ++ quoted name
  | noPackage name parent => "No module named " ++ quoted name ++ "; " ++ quoted parent ++ " is not a package"
  | noMember host member => "module '" ++ host ++ "' has no attribute '" ++ member ++ "'"
  | factoryFailed importString failure =>
    "Factory function " ++ quoted importString ++ " raised an error: " ++ failure
  | noMapper importString kind =>
    quoted importString ++ " resolved to " ++ kind ++ ", not a msgmap.MessageMapper instance"

namespace HostModule

/-- Imports the module with a dotted name, given by its parts, last one first. The parent of a module is
imported before the module. -/
def importParts (host : HostModule) : List String → Except ResolveError Unit
  | [] => .error .emptyModuleName
  | [part] => if part == host.name then .ok () else .error (.noModule part)
  | part :: parents =>
    let name := String.intercalate "." (part :: parents).reverse
    if name == host.name then .ok ()
    else do
      host.importParts parents
      .error (.noPackage name (String.intercalate "." parents.reverse))

/-- Imports the module with a dotted name. -/
def importModule (host : HostModule) (name : String) : Except ResolveError Unit :=
  if name.isEmpty then .error .emptyModuleName
  else if name.toList.head? == some '.' then .error (.relativeName name)
  else host.importParts (splitOn "." name).reverse

/-- The two parts of an import string: the module, and the member after the first colon. -/
def splitImport (importString : String) : String × String :=
  let cs := importString.toList
  let member := (cs.dropWhile (· != ':')).drop 1
  (String.ofList (cs.takeWhile (· != ':')), if member.isEmpty then "mapper" else String.ofList member)

/-- The product of a factory, and any other object itself. -/
def produce (importString : String) : HostObject → Except ResolveError HostObject
  | .factory product => .ok product
  | .broken failure => .error (.factoryFailed importString failure)
  | object => .ok object

/-- The mapper that an import string leads to. -/
def resolve (host : HostModule) (importString : String) : Except ResolveError Mapper := do
  let (name, member) := splitImport importString
  host.importModule name
  match host.members.lookup member with
  | none => .error (.noMember host.name member)
  | some found =>
    let object ← produce importString found
    match object.unwrap with
    | .mapper m => .ok m
    | other => .error (.noMapper importString other.kindName)

end HostModule

end Switchboard
