import Switchboard.Cli.Usage
import Switchboard.Import
import Switchboard.Mapper.Dispatch

/-!
# Running a command

`routes` writes a table of the templates of a mapper with their actions and authorization paths. `check` writes
for every template whether it would take a message, then what would be called; it fails when nothing would. Remarks go
to the error output, warnings only unless all are asked for. An import string that leads to no mapper is
reported, but for an empty module name, which ends the program.
-/

namespace Switchboard.Cli

/-- An error that no command handles. -/
inductive Crash where
  | resolve (error : ResolveError)
  | pick (error : Collector.PickError)
deriving DecidableEq, Repr, Inhabited

/-- The wording of the error. -/
def Crash.message : Crash → String
  | resolve error => error.message
  | pick error => error.message

/-- How a run of the program ends. -/
inductive Ending where
  /-- With an exit code and what was written. -/
  | exited (code : Nat) (output errors : String)
  | crashed (crash : Crash)
deriving DecidableEq, Repr, Inhabited

/-- A remark as a line of the error output, if it is shown. -/
def remarkLine? (debug : Bool) (r : Remark) : Option String :=
  if debug then some (r.level.name ++ ": " ++ r.channel.name ++ ": " ++ r.text)
  else
    match r.level with
    | .warning => some r.text
    | .debug => none

/-- The error output of a journal. -/
def remarkLines (debug : Bool) (remarks : List Remark) : String := lines (remarks.filterMap (remarkLine? debug))

/-- A text with blanks after it up to a width. -/
def padded (width : Nat) (text : String) : String :=
  text ++ String.ofList (List.replicate (width - text.length) ' ')

/-- The greatest of some lengths, and at least `least`. -/
def widest (least : Nat) (texts : List String) : Nat := texts.foldl (fun n s => max n s.length) least

/-- The greatest length of the rule under the head of the table. -/
def ruleWidth : Nat := 80

/-- The table of the templates of a mapper. -/
def routesTable (m : Mapper) : List String :=
  if m.templates.isEmpty then ["No templates mapped."]
  else
    let texts := widest 8 (m.templates.map (·.text))
    let actions := widest 6 (m.templates.map (·.action))
    let paths := widest 0 (m.templates.map (·.path))
    let row (text action path : String) := padded texts text ++ "  " ++ padded actions action ++ "  " ++ path
    [row "TEMPLATE" "ACTION" "AUTH PATH",
      String.ofList (List.replicate (min (texts + actions + 4 + paths) ruleWidth) '-')]
      ++ m.templates.map (fun t => row t.text t.action t.path)
      ++ match m.fallback with
        | some fallback => if fallback.isEmpty then [] else ["", "fallback: " ++ fallback]
        | none => []

/-- The line about one template; `won` says that a template before it would take the message. -/
def verdictLine (won : Bool) (t : Template) (failure : Option String) : String :=
  match failure with
  | some failure => "  skip   " ++ quoted t.text ++ ": " ++ failure
  | none =>
    if won then "  shadow " ++ quoted t.text ++ " (an earlier template wins)"
    else "  match  " ++ quoted t.text ++ " -> " ++ t.action ++ " [" ++ t.path ++ "]"

/-- The lines about all templates. -/
def verdictLines (won : Bool) : List (Template × Option String) → List String
  | [] => []
  | (t, failure) :: more => verdictLine won t failure :: verdictLines (won || failure.isNone) more

/-- The first template that would take the message. -/
def winner? (verdicts : List (Template × Option String)) : Option Template :=
  (verdicts.find? (·.2.isNone)).map (·.1)

/-- What a check found: the exit code and the output. -/
structure CheckReport where
  code : Nat
  output : List String
deriving DecidableEq, Repr, Inhabited

/-- The last lines of a check without a winner, which is a failure unless there is a fallback to call. -/
def fallbackReport (m : Mapper) : CheckReport :=
  match m.fallback.filter (!·.isEmpty) with
  | none => { code := 1, output := ["", "no template matches and no fallback is set"] }
  | some fallback =>
    if m.respondsTo fallback then
      { code := 0, output := ["", "no template matches; fallback " ++ fallback ++ "() if allowed"] }
    else
      { code := 1
        output := ["", "no template matches and " ++ m.identity ++ " has no " ++ fallback ++ "() fallback"] }

/-- The arguments of a recognized message as reports show them. -/
def shownRecognition : Recognition → String
  | .recognized arguments => arguments.shown
  | .rejected _ => "None"

/-- Checks how a message would be dispatched. -/
def check (m : Mapper) (message : Message) : Attempt Collector.PickError CheckReport := do
  let (frozen, report) := m.explain message
  let verdicts ← report
  let body := verdictLines false verdicts
  match winner? verdicts with
  | some t =>
    let recognition ← t.recognize message
    return {
      code := 0
      output := body ++
        ["", t.action ++ "(" ++ shownRecognition recognition ++ ") if " ++ t.path ++ " is allowed"] }
  | none =>
    let last := fallbackReport frozen
    return { last with output := body ++ last.output }

/-- The optional text of an argument as a value. -/
def optionalText : Option String → Value
  | some s => .text s
  | none => .null

/-- Resolves an import string and goes on with the mapper, or reports why there is none. -/
def withMapper (host : HostModule) (importString : String) (use : Mapper → Ending) : Ending :=
  match host.resolve importString with
  | .ok m => use m
  | .error .emptyModuleName => .crashed (.resolve .emptyModuleName)
  | .error e => .exited 1 "" (lines ["Error: " ++ e.message])

/-- Runs a command. -/
def runCommand (host : HostModule) (debug : Bool) : Command → Ending
  | .routes importString => withMapper host importString fun m => .exited 0 (lines (routesTable m)) ""
  | .check importString text isPrivate source replyto =>
    withMapper host importString fun m =>
      let message : Message :=
        { text, isPrivate, source := optionalText source, replyto := optionalText replyto }
      let journal := ExceptT.run (check m message)
      match journal.value with
      | .ok report => .exited report.code (lines report.output) (remarkLines debug journal.remarks)
      | .error e => .crashed (.pick e)

/-- Runs the program with its arguments, where one module can be imported. -/
def run (host : HostModule) (arguments : List String) : Ending :=
  match readRequest arguments with
  | .error (.help manual) => .exited 0 manual.help ""
  | .error (.complaint manual e) => .exited 2 "" (manual.complaint e)
  | .ok request =>
    match request.command with
    | none => .exited 0 mainManual.help ""
    | some command => runCommand host request.debug command

end Switchboard.Cli
