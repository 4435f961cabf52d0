import Switchboard.Cli.Arguments

/-!
# Commands and their help

The command line has two commands: `routes` lists the templates of a mapper, and `check` shows how a message would
be dispatched. A `Manual` is what a reader of the command line sees of one grammar: the name of the program, the
usage lines and the help text.
-/

namespace Switchboard.Cli

/-- Lines of text, each ended. -/
def lines (ls : List String) : String := String.join (ls.map (· ++ "\n"))

/-- The texts about a command. -/
structure Manual where
  program : String
  usage : String
  details : String
deriving DecidableEq, Repr, Inhabited

/-- The help text: usage, then details. -/
def Manual.help (manual : Manual) : String := manual.usage ++ "\n" ++ manual.details

/-- What is written when the arguments are wrong. -/
def Manual.complaint (manual : Manual) (e : ArgumentError) : String :=
  manual.usage ++ manual.program ++ ": error: " ++ e.message ++ "\n"

/-- The grammar of the whole command line. -/
def mainGrammar : Grammar where
  options := [("-h", .help), ("--help", .help), ("-d", .debug), ("--debug", .debug)]
  positionals := [.rest "command"]

/-- The texts about the whole command line. -/
def mainManual : Manual where
  program := "msgmap"
  usage := lines ["usage: msgmap [-h] [-d] \x7broutes,check\x7d ..."]
  details := lines [
    "msgmap — text-command routing for chat services.",
    "",
    "positional arguments:",
    "  \x7broutes,check\x7d",
    "    routes        List mapped templates",
    "    check         Show how a message would be dispatched",
    "",
    "options:",
    "  -h, --help      show this help message and exit",
    "  -d, --debug     Log template compilation and matching at debug level"]

/-- The grammar of `routes`. -/
def routesGrammar : Grammar where
  options := [("-h", .help), ("--help", .help)]
  positionals := [.one "mapper"]

/-- The texts about `routes`. -/
def routesManual : Manual where
  program := "msgmap routes"
  usage := lines ["usage: msgmap routes [-h] mapper"]
  details := lines [
    "positional arguments:",
    "  mapper      Import string (e.g. myplugin:mapper)",
    "",
    "options:",
    "  -h, --help  show this help message and exit"]

/-- The grammar of `check`. -/
def checkGrammar : Grammar where
  options := [("-h", .help), ("--help", .help), ("--private", .isPrivate), ("--source", .source),
    ("--replyto", .replyto)]
  positionals := [.one "mapper", .one "text"]

/-- The texts about `check`. -/
def checkManual : Manual where
  program := "msgmap check"
  usage := lines [
    "usage: msgmap check [-h] [--private] [--source SOURCE] [--replyto REPLYTO]",
    "                    mapper text"]
  details := lines [
    "positional arguments:",
    "  mapper             Import string (e.g. myplugin:mapper)",
    "  text               Message text to route",
    "",
    "options:",
    "  -h, --help         show this help message and exit",
    "  --private          Treat the message as a private message",
    "  --source SOURCE    Sender of the message",
    "  --replyto REPLYTO  Reply target of the message"]

/-- What is asked of the program. -/
inductive Command where
  | routes (importString : String)
  | check (importString text : String) (isPrivate : Bool) (source replyto : Option String)
deriving DecidableEq, Repr, Inhabited

/-- The arguments, read: whether to show all remarks, and the command, if there is one. -/
structure Request where
  debug : Bool := false
  command : Option Command := none
deriving DecidableEq, Repr, Inhabited

/-- Why the arguments lead to no request. -/
inductive Halt where
  | help (manual : Manual)
  | complaint (manual : Manual) (e : ArgumentError)
deriving DecidableEq, Repr, Inhabited

/-- What the events of one grammar amount to. -/
structure Reading where
  switches : List (Switch × Option String) := []
  positionals : List (String × List String) := []
  extras : List String := []
deriving DecidableEq, Repr, Inhabited

namespace Reading

/-- The value that an option was last given. -/
def valueOf (r : Reading) (s : Switch) : Option String := (r.switches.reverse.lookup s).join

/-- Whether an option was given. -/
def has (r : Reading) (s : Switch) : Bool := r.switches.any (·.1 == s)

/-- The first argument under the name of a positional one. -/
def argument (r : Reading) (name : String) : String := ((r.positionals.lookup name).bind List.head?).getD ""

/-- Adds one event to a reading. Asking for help, like an error, ends it. -/
def add (manual : Manual) (r : Reading) : Event → Except Halt Reading
  | .switch .help _ => .error (.help manual)
  | .switch s value => .ok { r with switches := r.switches ++ [(s, value)] }
  | .positional p arguments => .ok { r with positionals := r.positionals ++ [(p.name, arguments)] }
  | .extra argument => .ok { r with extras := r.extras ++ [argument] }
  | .error e => .error (.complaint manual e)

end Reading

/-- Reads the arguments of a command whose positional arguments are all required. -/
def readCommand (grammar : Grammar) (manual : Manual) (arguments : List String) : Except Halt Reading := do
  let (events, missing) := grammar.read arguments
  let r ← events.foldlM (Reading.add manual) {}
  if missing.isEmpty then .ok r else .error (.complaint manual (.required (missing.map Positional.name)))

/-- The names of the commands. -/
def commandNames : List String := ["routes", "check"]

/-- Reads a command by its name, with the arguments that it leaves over. -/
def readNamed (name : String) (arguments : List String) : Except Halt (Command × List String) :=
  if name == "routes" then do
    let r ← readCommand routesGrammar routesManual arguments
    return (.routes (r.argument "mapper"), r.extras)
  else if name == "check" then do
    let r ← readCommand checkGrammar checkManual arguments
    return (.check (r.argument "mapper") (r.argument "text") (r.has .isPrivate) (r.valueOf .source)
      (r.valueOf .replyto), r.extras)
  else .error (.complaint mainManual (.badChoice "command" name commandNames))

/-- Reads the events of the whole command line in order; the command is read where it stands. -/
def readEvents (r : Reading) (command : Option (Command × List String)) :
    List Event → Except Halt (Reading × Option (Command × List String))
  | [] => .ok (r, command)
  | .positional _ (name :: arguments) :: events => do
    let found ← readNamed name arguments
    readEvents r (some found) events
  | event :: events => do
    let r ← r.add mainManual event
    readEvents r command events

/-- Reads the whole command line. -/
def readRequest (arguments : List String) : Except Halt Request := do
  let (r, command) ← readEvents {} none (mainGrammar.read arguments).1
  let extras := r.extras ++ ((command.map (·.2)).getD [])
  if extras.isEmpty then .ok { debug := r.has .debug, command := command.map (·.1) }
  else .error (.complaint mainManual (.unrecognized extras))

end Switchboard.Cli
