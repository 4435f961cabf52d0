import Switchboard.Proofs.Cli.Check
import Switchboard.Proofs.Text.Quoted
import Switchboard.Proofs.Text.Separated

/-!
# Bad Import Strings Are Reported

An import string is cut at its first colon, its module is imported, its member looked up, called if
it is a factory, and unwrapped. `HostModule.resolve_eq_error` says once how each of these steps can
fail. All of the errors are ones that the commands report, but for that of an empty module name,
which is the error of exactly the import strings with nothing before the colon
(`HostModule.resolve_eq_emptyModuleName_iff`).

When an import string leads to a mapper, the commands have no failure of their own: the mappers that a
module holds have gone through the steps of a mapper (`HostModule.Genuine`), so their tables are sound.

## Main results

* `bad_imports_are_reported`: the runs of both commands for an import string with a module name.
-/

namespace Switchboard

/-! ### The wording of the errors -/

theorem HostObject.lineFeed_notMem_kindName (object : HostObject) : '\n' ∉ object.kindName.toList := by
  cases object with
  | value v => cases v <;> simp [kindName, Value.kindName]
  | _ => simp [kindName]

/-- The parts of an error that are written as they are. -/
def ResolveError.rawParts : ResolveError → List String
  | .noMember host member => [host, member]
  | .factoryFailed _ failure => [failure]
  | .noMapper _ kind => [kind]
  | _ => []

/-- The line feeds of an error are those of the parts that are written as they are. -/
theorem ResolveError.lineFeed_mem_message_iff (e : ResolveError) :
    '\n' ∈ e.message.toList ↔ ∃ part ∈ e.rawParts, '\n' ∈ part.toList := by
  unfold message
  cases e <;> simp [rawParts, lineFeed_notMem_quoted]

/-! ### What a module holds -/

/-- The mappers that an object leads to: itself, the one that is its member, or the one that it
makes. -/
inductive HostObject.Holds (m : Mapper) : HostObject → Prop
  | mapper : Holds m (.mapper m)
  | holder {inner : HostObject} : Holds m inner → Holds m (.holder (some inner))
  | kind {inner : HostObject} : Holds m inner → Holds m (.kind (some inner))
  | factory {product : HostObject} : Holds m product → Holds m (.factory product)

/-- A module whose mappers have been made as mappers are made, and used as they are used. -/
def HostModule.Genuine (host : HostModule) : Prop :=
  ∀ entry ∈ host.members, ∀ m, entry.2.Holds m → m.Reachable

/-- Unwrapping leads to a mapper that the object holds. -/
theorem HostObject.holds_of_unwrap {object : HostObject} {m : Mapper}
    (h : object.unwrap = .mapper m) : object.Holds m := by
  unfold unwrap at h
  split at h
  · exact .holder (h ▸ .mapper)
  · exact .kind (h ▸ .mapper)
  · exact h ▸ .mapper

namespace HostModule

/-- What a factory makes is among what it holds. -/
theorem holds_of_produce {importString : String} {found object : HostObject} {m : Mapper}
    (h : produce importString found = .ok object) (hm : object.Holds m) : found.Holds m := by
  unfold produce at h
  split at h
  · obtain rfl := Except.ok.inj h
    exact .factory hm
  · cases h
  · obtain rfl := Except.ok.inj h
    exact hm

/-- The mapper that an import string leads to is held by the member that it names. -/
theorem holds_of_resolve {host : HostModule} {importString : String} {m : Mapper}
    (h : host.resolve importString = .ok m) :
    ∃ found, host.members.lookup (splitImport importString).2 = some found ∧ found.Holds m := by
  rw [resolve, Except.bind_eq_ok_iff] at h
  obtain ⟨-, -, h⟩ := h
  split at h
  case h_1 => cases h
  case h_2 found hfound =>
      rw [Except.bind_eq_ok_iff] at h
      obtain ⟨object, hproduce, h⟩ := h
      split at h
      case h_1 hunwrap =>
          obtain rfl := Except.ok.inj h
          exact ⟨found, hfound, holds_of_produce hproduce (HostObject.holds_of_unwrap hunwrap)⟩
      case h_2 => cases h

/-- The mapper that an import string leads to has a history. -/
theorem Genuine.reachable {host : HostModule} (hhost : host.Genuine) {importString : String}
    {m : Mapper} (h : host.resolve importString = .ok m) : m.Reachable := by
  obtain ⟨found, hfound, hholds⟩ := holds_of_resolve h
  obtain ⟨before, after, hmembers, -⟩ := List.lookup_eq_some_iff.mp hfound
  have hmem : ((splitImport importString).2, found) ∈ host.members :=
    hmembers ▸ List.mem_append_right before List.mem_cons_self
  exact hhost _ hmem m hholds

/-! ### How an import fails -/

/-- A name of one part is that of the module, or nothing is found under it. -/
theorem importParts_singleton (host : HostModule) (part : String) :
    host.importParts [part] = if part == host.name then .ok () else .error (.noModule part) := rfl

/-- Nothing can be imported from within a module, only the module itself. -/
theorem importParts_cons_cons (host : HostModule) (part next : String) (parents : List String) :
    host.importParts (part :: next :: parents) =
      let name := String.intercalate "." (part :: next :: parents).reverse
      if name == host.name then .ok ()
      else host.importParts (next :: parents) >>= fun _ =>
        .error (.noPackage name (String.intercalate "." (next :: parents).reverse)) := rfl

/-- Only the module itself can be imported. -/
theorem name_of_importParts {host : HostModule} {parts : List String}
    (h : host.importParts parts = .ok ()) : String.intercalate "." parts.reverse = host.name := by
  match parts with
  | [] => cases h
  | [part] =>
      rw [importParts_singleton] at h
      split at h
      case isTrue hname => simpa using hname
      case isFalse => cases h
  | part :: next :: parents =>
      rw [importParts_cons_cons] at h
      dsimp only at h
      split at h
      case isTrue hname => exact beq_iff_eq.mp hname
      case isFalse =>
          obtain ⟨-, -, h⟩ := Except.bind_eq_ok_iff.mp h
          cases h

/-- A dotted name fails where its first part is no module, or behind the part that is one. -/
theorem importParts_eq_error {host : HostModule} {parts : List String} {e : ResolveError}
    (hne : parts ≠ []) (h : host.importParts parts = .error e) :
    (∃ name, e = .noModule name) ∨ ∃ name parent, e = .noPackage name parent := by
  induction parts with
  | nil => exact absurd rfl hne
  | cons part parents ih =>
      cases parents with
      | nil =>
          rw [importParts_singleton] at h
          split at h
          · cases h
          · exact .inl ⟨part, (Except.error.inj h).symm⟩
      | cons next parents =>
          rw [importParts_cons_cons] at h
          dsimp only at h
          split at h
          · cases h
          · rcases Except.bind_eq_error_iff.mp h with hparent | ⟨-, -, h⟩
            · exact ih (List.cons_ne_nil next parents) hparent
            · exact .inr ⟨_, _, (Except.error.inj h).symm⟩

theorem name_of_importModule {host : HostModule} {name : String}
    (h : host.importModule name = .ok ()) : name = host.name := by
  unfold importModule at h
  split at h
  · cases h
  · split at h
    · cases h
    · have hname := name_of_importParts h
      rwa [List.reverse_reverse, intercalate_splitOn (by decide)] at hname

/-- **How the import of a module fails.** The first case is that of the empty name and of no other. -/
theorem importModule_eq_error {host : HostModule} {name : String} {e : ResolveError}
    (h : host.importModule name = .error e) :
    (name = "" ∧ e = .emptyModuleName) ∨ name ≠ "" ∧
      (e = .relativeName name ∨ (∃ part, e = .noModule part) ∨
        ∃ inner parent, e = .noPackage inner parent) := by
  unfold importModule at h
  split at h
  case isTrue hempty => exact .inl ⟨by simpa using hempty, (Except.error.inj h).symm⟩
  case isFalse hname =>
      refine .inr ⟨by simpa using hname, ?_⟩
      split at h
      · exact .inl (Except.error.inj h).symm
      · have hparts : (splitOn "." name).reverse ≠ [] := by
          simpa [splitOn] using splitFrom_ne_nil (by decide) name.toList
        exact .inr (importParts_eq_error hparts h)

/-- **How an import string fails.** Its module is not imported, or has no such member, or the member
is a factory that fails, or what it leads to is no mapper. -/
theorem resolve_eq_error {host : HostModule} {importString : String} {e : ResolveError}
    (h : host.resolve importString = .error e) :
    host.importModule (splitImport importString).1 = .error e ∨
      host.importModule (splitImport importString).1 = .ok () ∧
        ((host.members.lookup (splitImport importString).2 = none ∧
            e = .noMember host.name (splitImport importString).2) ∨
          (∃ failure, host.members.lookup (splitImport importString).2 = some (.broken failure) ∧
            e = .factoryFailed importString failure) ∨
          ∃ object : HostObject, e = .noMapper importString object.kindName) := by
  rw [resolve] at h
  rcases Except.bind_eq_error_iff.mp h with himport | ⟨_, himport, h⟩
  · exact .inl himport
  · refine .inr ⟨himport, ?_⟩
    split at h
    case h_1 hnone => exact .inl ⟨hnone, (Except.error.inj h).symm⟩
    case h_2 found hfound =>
        rcases Except.bind_eq_error_iff.mp h with hproduce | ⟨object, -, h⟩
        · cases found with
          | broken failure => exact .inr (.inl ⟨failure, hfound, (Except.error.inj hproduce).symm⟩)
          | _ => cases hproduce
        · split at h
          · cases h
          · exact .inr (.inr ⟨_, (Except.error.inj h).symm⟩)

/-- The error of an empty module name is that of the import strings without a module name. -/
theorem resolve_eq_emptyModuleName_iff {host : HostModule} {importString : String} :
    host.resolve importString = .error .emptyModuleName ↔ (splitImport importString).1 = "" := by
  constructor
  · intro h
    rcases resolve_eq_error h with himport | ⟨-, ⟨-, hmember⟩ | ⟨_, -, hfactory⟩ | ⟨_, hmapper⟩⟩
    · rcases importModule_eq_error himport with ⟨hempty, -⟩ | ⟨-, he | ⟨_, he⟩ | ⟨_, _, he⟩⟩
      · exact hempty
      all_goals cases he
    · cases hmember
    · cases hfactory
    · cases hmapper
  · intro hempty
    simp only [resolve, hempty]
    rfl

/-- No part of an import string has a line feed that the string has not. -/
theorem lineFeed_notMem_splitImport {importString : String} (h : '\n' ∉ importString.toList) :
    '\n' ∉ (splitImport importString).1.toList ∧ '\n' ∉ (splitImport importString).2.toList := by
  have hmember : '\n' ∉ (importString.toList.dropWhile (· != ':')).drop 1 := fun hmem =>
    h ((List.dropWhile_sublist _).subset (List.mem_of_mem_drop hmem))
  constructor
  · rw [splitImport, String.toList_ofList]
    exact fun hmem => h ((List.takeWhile_sublist _).subset hmem)
  · rw [splitImport]
    dsimp only
    split
    · decide
    · rwa [String.toList_ofList]

/-- **The report of an import string is one line**, unless the string itself has a line feed, or the
failure of the factory that it names has one. -/
theorem lineFeed_notMem_message {host : HostModule} {importString : String} {e : ResolveError}
    (h : host.resolve importString = .error e) (hstring : '\n' ∉ importString.toList)
    (hfailure : ∀ failure, host.members.lookup (splitImport importString).2 = some (.broken failure) →
      '\n' ∉ failure.toList) : '\n' ∉ e.message.toList := by
  obtain ⟨hname, hmember⟩ := lineFeed_notMem_splitImport hstring
  rw [ResolveError.lineFeed_mem_message_iff]
  rcases resolve_eq_error h with
    himport | ⟨himport, ⟨-, rfl⟩ | ⟨failure, hfound, rfl⟩ | ⟨object, rfl⟩⟩
  · rcases importModule_eq_error himport with ⟨-, rfl⟩ | ⟨-, rfl | ⟨_, rfl⟩ | ⟨_, _, rfl⟩⟩
    all_goals simp [ResolveError.rawParts]
  · -- The name of the module has been imported, so it is the one in the string.
    rw [name_of_importModule himport] at hname
    simp [ResolveError.rawParts, hname, hmember]
  · simp [ResolveError.rawParts, hfailure failure hfound]
  · simp [ResolveError.rawParts, HostObject.lineFeed_notMem_kindName]

end HostModule

namespace Cli

/-! ### Runs -/

/-- The import string of a command. -/
def Command.importString : Command → String
  | .routes importString => importString
  | .check importString _ _ _ _ => importString

/-- A mapper with a history can check every message. -/
theorem exists_check {m : Mapper} (h : m.Reachable) (message : Message) :
    ∃ found, (check m message).outcome = .ok found := by
  obtain ⟨report, hreport, -, hentries⟩ := h.report message
  rcases Mapper.tryTemplates_of_report hentries [] with
    ⟨t, handler, arguments, hchosen, htakes, -⟩ | ⟨-, hchosen, -⟩
  · exact ⟨_, outcome_check_of_chosen hreport hchosen htakes.recognizes⟩
  · exact ⟨_, outcome_check_of_not_chosen hreport hchosen⟩

/-- A command for a mapper with a history runs to its end. -/
theorem runCommand_of_resolve {host : HostModule} {command : Command} {m : Mapper}
    (hresolve : host.resolve command.importString = .ok m) (h : m.Reachable) (debug : Bool) :
    ∃ code output errors, runCommand host debug command = .exited code output errors := by
  cases command with
  | routes importString =>
      refine ⟨0, lines (routesTable m), "", ?_⟩
      rw [Command.importString] at hresolve
      rw [runCommand, withMapper, hresolve]
  | check importString text isPrivate source replyto =>
      obtain ⟨found, hfound⟩ := exists_check h (checkedMessage text isPrivate source replyto)
      obtain ⟨errors, hrun⟩ := runCommand_check hresolve debug text isPrivate source replyto hfound
      exact ⟨_, _, errors, hrun⟩

/-- Every other error than that of an empty module name is reported. -/
theorem runCommand_of_error {host : HostModule} {command : Command} {e : ResolveError}
    (hresolve : host.resolve command.importString = .error e) (he : e ≠ .emptyModuleName)
    (debug : Bool) :
    runCommand host debug command = .exited 1 "" ("Error: " ++ e.message ++ "\n") := by
  have hreport : ∀ use, withMapper host command.importString use =
      .exited 1 "" ("Error: " ++ e.message ++ "\n") := by
    intro use
    rw [withMapper, hresolve]
    cases e with
    | emptyModuleName => exact absurd rfl he
    | _ => simp [lines, String.join]
  cases command with
  | routes importString => exact hreport _
  | check importString text isPrivate source replyto => exact hreport _

/-! ### The command lines -/

/-- An argument that no grammar takes for an option. -/
def Plain (argument : String) : Prop := argument.toList.head? ≠ some '-'

theorem Plain.ne_dashes {argument : String} (h : Plain argument) : argument ≠ "--" := by
  rintro rfl
  exact h rfl

theorem Plain.erase_dashes {argument : String} (h : Plain argument) :
    [argument].erase "--" = [argument] := by
  simp [h.ne_dashes]

/-- Before any option or `--`, plain arguments are seen as what they are. -/
theorem marks_of_plain (g : Grammar) {arguments : List String}
    (h : ∀ argument ∈ arguments, Plain argument) :
    g.marks arguments = .ok (arguments.map (Mark.plain, ·)) := by
  induction arguments with
  | nil => rfl
  | cons argument more ih =>
      have hplain := h argument List.mem_cons_self
      have hdashes : (argument == "--") = false := by simp [hplain.ne_dashes]
      have hmark : g.markOf argument = .ok .plain := by
        unfold Plain at hplain
        simp [Grammar.markOf, hplain]
      have hmore := ih fun argument hmem => h argument (List.mem_cons_of_mem _ hmem)
      rw [Grammar.marks, hdashes, hmark, hmore]
      rfl

/-- A line with `routes` and an import string asks for the routes of its mapper. -/
theorem readRequest_routes {importString : String} (h : Plain importString) :
    readRequest ["routes", importString] = .ok { command := some (.routes importString) } := by
  have hname : Plain "routes" := by unfold Plain; decide
  have hmain : mainGrammar.read ["routes", importString] =
      ([.positional (.rest "command") ["routes", importString]], []) := by
    rw [Grammar.read, marks_of_plain mainGrammar (by simp [hname, h])]
    rfl
  have hroutes : routesGrammar.read [importString] =
      ([.positional (.one "mapper") ([importString].erase "--")], []) := by
    rw [Grammar.read, marks_of_plain routesGrammar (by simp [h])]
    rfl
  rw [h.erase_dashes] at hroutes
  have hcommand : readNamed "routes" [importString] = .ok (.routes importString, []) := by
    simp only [readNamed, readCommand, hroutes]
    rfl
  simp only [readRequest, hmain, readEvents, hcommand]
  rfl

/-- A line with `check`, an import string and a text asks what its mapper would do with the text. -/
theorem readRequest_check {importString text : String} (h : Plain importString)
    (htext : Plain text) :
    readRequest ["check", importString, text] =
      .ok { command := some (.check importString text false none none) } := by
  have hname : Plain "check" := by unfold Plain; decide
  have hmain : mainGrammar.read ["check", importString, text] =
      ([.positional (.rest "command") ["check", importString, text]], []) := by
    rw [Grammar.read, marks_of_plain mainGrammar (by simp [hname, h, htext])]
    rfl
  have hcheck : checkGrammar.read [importString, text] =
      ([.positional (.one "mapper") ([importString].erase "--"),
        .positional (.one "text") ([text].erase "--")], []) := by
    rw [Grammar.read, marks_of_plain checkGrammar (by simp [h, htext])]
    rfl
  rw [h.erase_dashes, htext.erase_dashes] at hcheck
  have hcommand : readNamed "check" [importString, text] =
      .ok (.check importString text false none none, []) := by
    simp only [readNamed, readCommand, hcheck]
    rfl
  simp only [readRequest, hmain, readEvents, hcommand]
  rfl

/-! ### The main result -/

/-- **Bad import strings are reported.** Take a module whose mappers have been made and used as mappers
are, and an import string with something before its colon. A line of arguments that asks for one of
the two commands and this string, such as `routes` with the string or `check` with the string and a
text, always runs to an exit code. When the string leads to no mapper, the code is 1, nothing is
output, and the errors are `Error: ` with the reason behind it, in one line unless the string itself or
the failure of the factory that it names has a line feed. -/
theorem bad_imports_are_reported {host : HostModule} (hhost : host.Genuine) {importString : String}
    (hmodule : (HostModule.splitImport importString).1 ≠ "") :
    (Plain importString →
      readRequest ["routes", importString] = .ok { command := some (.routes importString) } ∧
        ∀ text, Plain text → readRequest ["check", importString, text] =
          .ok { command := some (.check importString text false none none) }) ∧
    ∀ arguments debug command, readRequest arguments = .ok { debug, command := some command } →
      command.importString = importString →
        (∃ code output errors, run host arguments = .exited code output errors) ∧
        ∀ e, host.resolve importString = .error e →
          run host arguments = .exited 1 "" ("Error: " ++ e.message ++ "\n") ∧
          ('\n' ∉ importString.toList →
            (∀ failure, host.members.lookup (HostModule.splitImport importString).2 =
              some (.broken failure) → '\n' ∉ failure.toList) →
            '\n' ∉ e.message.toList) := by
  refine ⟨fun h => ⟨readRequest_routes h, fun text htext => readRequest_check h htext⟩, ?_⟩
  rintro arguments debug command hread rfl
  have hrun : run host arguments = runCommand host debug command := by rw [run, hread]
  have hfailed : ∀ e, host.resolve command.importString = .error e →
      run host arguments = .exited 1 "" ("Error: " ++ e.message ++ "\n") := by
    intro e he
    have hne : e ≠ .emptyModuleName := by
      rintro rfl
      exact hmodule (HostModule.resolve_eq_emptyModuleName_iff.mp he)
    rw [hrun, runCommand_of_error he hne]
  refine ⟨?_, fun e he => ⟨hfailed e he, HostModule.lineFeed_notMem_message he⟩⟩
  cases hresolve : host.resolve command.importString with
  | error e => exact ⟨_, _, _, hfailed e hresolve⟩
  | ok m =>
      rw [hrun]
      exact runCommand_of_resolve hresolve (hhost.reachable hresolve) debug

/-- The module of the porch with a gate, a factory that does not work. -/
def gatedModule : HostModule where
  name := "porch"
  members := [("mapper", .mapper porch), ("gate", .broken "no key")]

/-- The mapper of the porch is the only one behind the gate. -/
theorem genuine_gatedModule : gatedModule.Genuine := by
  intro entry hentry m hholds
  simp only [gatedModule, List.mem_cons, List.not_mem_nil, or_false] at hentry
  rcases hentry with rfl | rfl
  · cases hholds
    exact reachable_porch
  · cases hholds

/-- A check at the gate reports that the factory does not work, in one line. -/
theorem bad_imports_are_reported_gate :
    gatedModule.Genuine ∧ (HostModule.splitImport "porch:gate").1 ≠ "" ∧
      gatedModule.resolve "porch:gate" = .error (.factoryFailed "porch:gate" "no key") ∧
      ∃ report, run gatedModule ["check", "porch:gate", "hi bob"] = .exited 1 "" (report ++ "\n") ∧
        '\n' ∉ report.toList := by
  have hmodule : (HostModule.splitImport "porch:gate").1 ≠ "" := by decide
  have hresolve : gatedModule.resolve "porch:gate" =
      .error (.factoryFailed "porch:gate" "no key") := rfl
  have hplain : Plain "porch:gate" ∧ Plain "hi bob" := by unfold Plain; decide
  obtain ⟨hlines, hruns⟩ := bad_imports_are_reported genuine_gatedModule hmodule
  obtain ⟨-, hreported⟩ := hruns _ _ _ ((hlines hplain.1).2 "hi bob" hplain.2) rfl
  obtain ⟨hrun, hline⟩ := hreported _ hresolve
  refine ⟨genuine_gatedModule, hmodule, hresolve, _, hrun, ?_⟩
  have hfailure : ∀ failure, gatedModule.members.lookup (HostModule.splitImport "porch:gate").2 =
      some (.broken failure) → '\n' ∉ failure.toList := by
    intro failure hfound
    have hkey : gatedModule.members.lookup (HostModule.splitImport "porch:gate").2 =
        some (.broken "no key") := rfl
    rw [hkey] at hfound
    cases hfound
    decide
  have hmessage := hline (by decide) hfailure
  simpa using hmessage

/-- An empty module name ends both commands with an error that they do not report. -/
theorem empty_module_name_escapes :
    gatedModule.Genuine ∧
      run gatedModule ["routes", ":x"] = .crashed (.resolve .emptyModuleName) ∧
      run gatedModule ["check", ":x", "hi bob"] = .crashed (.resolve .emptyModuleName) :=
  ⟨genuine_gatedModule, rfl, rfl⟩

end Cli

end Switchboard
