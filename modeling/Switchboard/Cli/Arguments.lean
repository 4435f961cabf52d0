import Switchboard.Text.Quoted
import Switchboard.Text.Word

/-!
# Reading command line arguments

A `Grammar` lists the options of a command and the positional arguments that it takes. `Grammar.read` goes through the
arguments: options may stand anywhere, a long one may be abbreviated as long as that is not ambiguous, short ones
may be written together, and after `--` nothing is an option. Arguments that nothing takes are collected as extra ones.

Reading produces a list of events in the order of the arguments, up to the first error; acting on them is
left to the command.
-/

namespace Switchboard.Cli

/-- The options of all commands. -/
inductive Switch where
  | help
  | debug
  | isPrivate
  | source
  | replyto
deriving DecidableEq, Repr, Inhabited

/-- Whether an option takes a value. -/
def Switch.takesValue : Switch → Bool
  | source | replyto => true
  | _ => false

/-- A positional argument: one argument, or all that are left, the first of them a choice. -/
inductive Positional where
  | one (name : String)
  | rest (name : String)
deriving DecidableEq, Repr, Inhabited

/-- The name of a positional argument. -/
def Positional.name : Positional → String
  | one name | rest name => name

/-- What a command understands. -/
structure Grammar where
  /-- The spellings of options. -/
  options : List (String × Switch)
  positionals : List Positional
deriving Repr, Inhabited

/-- What is wrong with the arguments. -/
inductive ArgumentError where
  | ambiguous (argument : String) (candidates : List String)
  | valueExpected (option : String)
  | valueIgnored (option value : String)
  | required (names : List String)
  | badChoice (name value : String) (choices : List String)
  | unrecognized (arguments : List String)
deriving DecidableEq, Repr, Inhabited

/-- The wording of the error. -/
def ArgumentError.message : ArgumentError → String
  | ambiguous argument candidates =>
    "ambiguous option: " ++ argument ++ " could match " ++ String.intercalate ", " candidates
  | valueExpected option => "argument " ++ option ++ ": expected one argument"
  | valueIgnored option value => "argument " ++ option ++ ": ignored explicit argument " ++ quoted value
  | required names => "the following arguments are required: " ++ String.intercalate ", " names
  | badChoice name value choices =>
    "argument " ++ name ++ ": invalid choice: " ++ quoted value ++ " (choose from "
      ++ String.intercalate ", " (choices.map quoted) ++ ")"
  | unrecognized arguments => "unrecognized arguments: " ++ String.intercalate " " arguments

/-- What an argument that looks like an option stands for. -/
structure OptionUse where
  /-- The option; none if the command has no such option. -/
  switch : Option Switch
  spelling : String
  /-- The value written in the same argument. -/
  value : Option String := none
  /-- Whether an equals sign stands before the value. -/
  equals : Bool := false
deriving DecidableEq, Repr, Inhabited

/-- How an argument is seen before it is taken. -/
inductive Mark where
  | plain
  | dashes
  | option (use : OptionUse)
deriving DecidableEq, Repr, Inhabited

/-- Something that was read. -/
inductive Event where
  | switch (s : Switch) (value : Option String)
  | positional (p : Positional) (arguments : List String)
  | extra (argument : String)
  | error (e : ArgumentError)
deriving DecidableEq, Repr, Inhabited

/-- Whether an argument is a negative number, which is never an option. -/
def isNegativeNumber (argument : String) : Bool :=
  match argument.toList with
  | '-' :: cs =>
    let line := if cs.getLast? == some '\n' then cs.dropLast else cs
    match line.dropWhile isDigitChar with
    | [] => !line.isEmpty
    | '.' :: more => !more.isEmpty && more.all isDigitChar
    | _ => false
  | _ => false

/-- Cuts an argument at its first equals sign. -/
def cutAtEquals (cs : List Char) : List Char × Option (List Char) :=
  match cs.dropWhile (· != '=') with
  | [] => (cs, none)
  | _ :: value => (cs.takeWhile (· != '='), some value)

namespace Grammar

/-- The option of a spelling. -/
def find? (g : Grammar) (spelling : String) : Option Switch := g.options.lookup spelling

/-- All spellings of an option, as errors show them. -/
def spellings (g : Grammar) (s : Switch) : String :=
  String.intercalate "/" ((g.options.filter (·.2 == s)).map (·.1))

/-- The options that an argument may be short for. -/
def candidates (g : Grammar) (argument : List Char) : List OptionUse :=
  match argument with
  | '-' :: '-' :: _ =>
    let (name, value) := cutAtEquals argument
    g.options.filterMap fun (spelling, s) =>
      if name.isPrefixOf spelling.toList then
        some { switch := some s, spelling, value := value.map String.ofList, equals := value.isSome }
      else none
  | _ =>
    g.options.filterMap fun (spelling, s) =>
      if spelling.toList == argument.take 2 then
        some { switch := some s, spelling, value := some (String.ofList (argument.drop 2)) }
      else if argument.isPrefixOf spelling.toList then some { switch := some s, spelling }
      else none

/-- How an argument before `--` is seen. -/
def markOf (g : Grammar) (argument : String) : Except ArgumentError Mark :=
  let cs := argument.toList
  let known := g.find? argument
  let (name, value) := cutAtEquals cs
  let named := if value.isSome then g.find? (String.ofList name) else none
  if cs.head? != some '-' then .ok .plain
  else if known.isSome then .ok (.option { switch := known, spelling := argument })
  else if cs.length == 1 then .ok .plain
  else if named.isSome then
    .ok (.option
      { switch := named, spelling := String.ofList name, value := value.map String.ofList, equals := true })
  else
    match g.candidates cs with
    | [use] => .ok (.option use)
    | [] =>
      if isNegativeNumber argument || cs.contains ' ' then .ok .plain
      else .ok (.option { switch := none, spelling := argument })
    | uses => .error (.ambiguous argument (uses.map (·.spelling)))

/-- How all arguments are seen. -/
def marks (g : Grammar) : List String → Except ArgumentError (List (Mark × String))
  | [] => .ok []
  | argument :: more =>
    if argument == "--" then .ok ((.dashes, argument) :: more.map (Mark.plain, ·))
    else do
      let mark ← g.markOf argument
      let rest ← g.marks more
      return (mark, argument) :: rest

end Grammar

/-- The number of leading `--`. -/
def leadingDashes (items : List (Mark × String)) : Nat := (items.takeWhile (·.1 == .dashes)).length

/-- How many arguments a positional one takes from the front, if it can. -/
def Positional.takes (p : Positional) (items : List (Mark × String)) : Option Nat :=
  let skipped := leadingDashes items
  match items.drop skipped with
  | (.plain, _) :: more =>
    match p with
    | .one _ => some (skipped + 1 + leadingDashes more)
    | .rest _ => some items.length
  | _ => none

/-- Takes as many positional arguments as the front of the arguments has. -/
def takePositionals :
    List Positional → List (Mark × String) → List Event × List Positional × List (Mark × String)
  | [], items => ([], [], items)
  | p :: ps, items =>
    match p.takes items with
    | none => ([], p :: ps, items)
    | some n =>
      let taken := (items.take n).map (·.2)
      let arguments := match p with
        | .one _ => taken.erase "--"
        | .rest _ => taken
      let (events, left, rest) := takePositionals ps (items.drop n)
      (.positional p arguments :: events, left, rest)

/-- Takes short options written together, starting with one that takes no value, and says whether the value of
the last one is the next argument. -/
def takeShort (g : Grammar) : Nat → OptionUse → List Event × Option Switch
  | 0, _ => ([], none)
  | fuel + 1, use =>
    match use.switch, use.value with
    | none, _ => ([.extra use.spelling], none)
    | some s, none => if s.takesValue then ([], some s) else ([.switch s none], none)
    | some s, some value =>
      if s.takesValue then ([.switch s (some value)], none)
      else
        let ignored := ([Event.error (.valueIgnored (g.spellings s) value)], none)
        match value.toList with
        | [] => ignored
        | c :: cs =>
          if use.spelling.toList.take 2 == ['-', '-'] || use.equals || c == '-' then ignored
          else
            let spelling := String.ofList ['-', c]
            match g.find? spelling with
            | none => ([.switch s none, .extra (String.ofList ('-' :: c :: cs))], none)
            | some next =>
              let use := match cs with
                | [] => { switch := some next, spelling : OptionUse }
                | '=' :: text => { switch := some next, spelling, value := some (String.ofList text), equals := true }
                | text => { switch := some next, spelling, value := some (String.ofList text) }
              let (events, pending) := takeShort g fuel use
              if events.any (fun e => match e with | .error _ => true | _ => false) then (events, pending)
              else (.switch s none :: events, pending)

/-- Takes the option at the front, with its value. -/
def takeOption (g : Grammar) (use : OptionUse) (rest : List (Mark × String)) : List Event × List (Mark × String) :=
  let (events, pending) := takeShort g (use.spelling.length + (use.value.getD "").length + 1) use
  match pending with
  | none => (events, rest)
  | some s =>
    match rest with
    | (.plain, value) :: more => (events ++ [.switch s (some value)], more)
    | _ => ([.error (.valueExpected (g.spellings s))], rest)

/-- Whether an argument is an option. -/
def isOption (item : Mark × String) : Bool :=
  match item.1 with
  | .option _ => true
  | _ => false

/-- Goes through the arguments. The first argument bounds the number of steps. -/
def takeAll (g : Grammar) : Nat → List Positional → List (Mark × String) → List Event × List Positional
  | 0, ps, _ => ([], ps)
  | fuel + 1, ps, items =>
    match items with
    | (.option use, _) :: more =>
      let (events, rest) := takeOption g use more
      let (later, left) := takeAll g fuel ps rest
      (events ++ later, left)
    | items =>
      let (events, left, rest) := takePositionals ps items
      if items.any isOption then
        if rest.length < items.length then
          let (later, left) := takeAll g fuel left rest
          (events ++ later, left)
        else
          let extra := (items.takeWhile (!isOption ·)).map (Event.extra ·.2)
          let (later, left) := takeAll g fuel ps (items.dropWhile (!isOption ·))
          (extra ++ later, left)
      else (events ++ rest.map (Event.extra ·.2), left)

/-- Reads arguments: the events, and the positional arguments that are missing. -/
def Grammar.read (g : Grammar) (arguments : List String) : List Event × List Positional :=
  match g.marks arguments with
  | .error e => ([.error e], g.positionals)
  | .ok items => takeAll g (2 * items.length + 1) g.positionals items

end Switchboard.Cli
