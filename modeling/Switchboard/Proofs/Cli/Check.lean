import Switchboard.Cli.Run
import Switchboard.Proofs.Mapper.Dispatch

/-!
# Checks Predict Dispatch

`Cli.check` says what would become of a message. It works from the report of the mapper alone, and
it makes out the first template and the fallback by itself. This module shows that it says the same
as handling does when the oracle allows everything: both read the same report
(`Mapper.tryTemplates_of_report`), the line of a match belongs to the template that is chosen from
it, and the fallback counts for both when it is set, not empty and there (`code_fallbackReport`).

The lines about the templates are written from left to right with one flag, *won*, which says
whether a match has been written. What is known of each line is therefore what the templates before
it leave in the flag (`verdictLines_append`).

## Main results

* `check_predicts_dispatch`: the exit code, the lines and the last line of a check, in terms of the
  dispatch of the same message when everything is allowed.
-/

namespace Switchboard

/-- A method that can be called is a member of the target. -/
theorem Target.mem_of_handler? {target : Target} {action : String} {handler : Handler}
    (h : target.handler? action = some handler) :
    (action, Member.method handler) ∈ target.members := by
  unfold Target.handler? at h
  split at h
  · cases h
  · split at h
    case h_1 found hlookup =>
        obtain rfl := Option.some.inj h
        obtain ⟨before, after, hmembers, -⟩ := List.lookup_eq_some_iff.mp hlookup
        rw [hmembers]
        exact List.mem_append_right _ List.mem_cons_self
    case h_2 => cases h

/-- A template that would run if it came first and the oracle allowed it: it recognizes the message
and the target has its action. -/
def Mapper.WouldRun (m : Mapper) (message : Message) (t : Template) : Prop :=
  ∃ handler arguments, m.Takes message t handler arguments

/-- The same mapper with an oracle that allows everything. -/
def Mapper.trusting (m : Mapper) : Mapper := { m with oracle := .allowAll }

namespace Cli

/-! ### The lines about the templates -/

/-- The line about the first template that would run. -/
def matchLine (t : Template) : String :=
  "  match  " ++ quoted t.text ++ " -> " ++ t.action ++ " [" ++ t.path ++ "]"

/-- The line about any other template that would run. -/
def shadowLine (t : Template) : String :=
  "  shadow " ++ quoted t.text ++ " (an earlier template wins)"

/-- The line about a template that would not run. -/
def skipLine (t : Template) (reason : String) : String :=
  "  skip   " ++ quoted t.text ++ ": " ++ reason

/-- A line that tells of a match. -/
def isMatchLine (line : String) : Bool := "  match  ".toList.isPrefixOf line.toList

/-- What the line about a template says, after the templates before it. -/
structure Judged (m : Mapper) (message : Message) (before : List Template) (t : Template)
    (line : String) : Prop where
  matched : m.WouldRun message t → (∀ u ∈ before, ¬ m.WouldRun message u) → line = matchLine t
  shadowed : m.WouldRun message t → (∃ u ∈ before, m.WouldRun message u) → line = shadowLine t
  skipped : ¬ m.WouldRun message t → ∃ reason, line = skipLine t reason
  /-- Recognizing the message is not enough: the target must have the action. -/
  unanswered : ∀ arguments, (t.recognize message).outcome = .ok (.recognized arguments) →
    m.target.handler? t.action = none → line = skipLine t (m.missingAction t)

theorem verdictLine_none (won : Bool) (t : Template) :
    verdictLine won t none = if won then shadowLine t else matchLine t := rfl

theorem verdictLine_some (won : Bool) (t : Template) (reason : String) :
    verdictLine won t (some reason) = skipLine t reason := rfl

/-- The first template that would run has the line of a match, and no other has. -/
theorem isMatchLine_verdictLine (won : Bool) (t : Template) (failure : Option String) :
    isMatchLine (verdictLine won t failure) = (!won && failure.isNone) := by
  cases failure with
  | some reason => simp [verdictLine_some, isMatchLine, skipLine, List.isPrefixOf]
  | none =>
      cases won
      · simp [verdictLine_none, isMatchLine, matchLine, List.isPrefixOf]
      · simp [verdictLine_none, isMatchLine, shadowLine, List.isPrefixOf]

/-- There is one line for each template. -/
theorem length_verdictLines (won : Bool) (report : List (Template × Option String)) :
    (verdictLines won report).length = report.length := by
  induction report generalizing won with
  | nil => rfl
  | cons entry report ih => simp [verdictLines, ih]

/-- The lines about later templates depend on those before through the flag only. -/
theorem verdictLines_append (won : Bool) (before later : List (Template × Option String)) :
    verdictLines won (before ++ later) =
      verdictLines won before ++
        verdictLines (won || before.any fun entry => entry.2.isNone) later := by
  induction before generalizing won with
  | nil => simp [verdictLines]
  | cons entry before ih => simp [verdictLines, ih, Bool.or_assoc]

/-- There is a line of a match exactly when some template would run, and then there is one. -/
theorem countP_isMatchLine (won : Bool) (report : List (Template × Option String)) :
    (verdictLines won report).countP isMatchLine =
      if !won && report.any fun entry => entry.2.isNone then 1 else 0 := by
  induction report generalizing won with
  | nil => simp [verdictLines]
  | cons entry report ih =>
      obtain ⟨t, failure⟩ := entry
      rw [verdictLines, List.countP_cons, ih, isMatchLine_verdictLine]
      cases won
      · cases failure
        · simp
        · simp only [Option.isNone_some, Bool.or_false, Bool.and_false, Bool.false_eq_true, if_false,
            List.any_cons, Bool.false_or, Nat.add_zero]
      · simp

/-- A template is chosen from the report exactly when some template would run. -/
theorem isSome_chosen (report : List (Template × Option String)) :
    (Mapper.chosen report).isSome = report.any fun entry => entry.2.isNone := by
  rw [Mapper.chosen, Option.isSome_map, Bool.eq_iff_iff, List.find?_isSome, List.any_eq_true]

/-- **Each line judges its template.** -/
theorem judged_verdictLine {m : Mapper} {message : Message} {t : Template}
    {failure : Option String} {before : List (Template × Option String)}
    (ht : (m.verdict message t).outcome = .ok failure)
    (hbefore : ∀ entry ∈ before, (m.verdict message entry.1).outcome = .ok entry.2) :
    Judged m message (before.map Prod.fst) t
      (verdictLine (before.any fun entry => entry.2.isNone) t failure) := by
  have hruns : ∀ {u : Template} {reason : Option String},
      (m.verdict message u).outcome = .ok reason → (m.WouldRun message u ↔ reason = none) := by
    intro u reason hu
    rw [Mapper.WouldRun, ← Mapper.verdict_eq_none_iff, hu, Except.ok.injEq]
  have hwon : (before.any fun entry => entry.2.isNone) = true ↔
      ∃ u ∈ before.map Prod.fst, m.WouldRun message u := by
    simp only [List.any_eq_true, List.mem_map, Option.isNone_iff_eq_none]
    constructor
    · rintro ⟨entry, hentry, hnone⟩
      exact ⟨entry.1, ⟨entry, hentry, rfl⟩, (hruns (hbefore entry hentry)).mpr hnone⟩
    · rintro ⟨_, ⟨entry, hentry, rfl⟩, hrun⟩
      exact ⟨entry, hentry, (hruns (hbefore entry hentry)).mp hrun⟩
  refine ⟨?_, ?_, ?_, ?_⟩
  · intro hrun hfirst
    obtain rfl := (hruns ht).mp hrun
    rw [verdictLine_none, if_neg]
    intro hany
    obtain ⟨u, hu, hrun⟩ := hwon.mp hany
    exact hfirst u hu hrun
  · intro hrun hearlier
    obtain rfl := (hruns ht).mp hrun
    rw [verdictLine_none, if_pos (hwon.mpr hearlier)]
  · intro hrun
    cases failure with
    | none => exact absurd ((hruns ht).mpr rfl) hrun
    | some reason => exact ⟨reason, rfl⟩
  · intro arguments hrecognized hmissing
    have hreason : (m.verdict message t).outcome = .ok (some (m.missingAction t)) := by
      rw [Mapper.verdict, Attempt.outcome_bind]
      refine Except.bind_eq_ok_iff.mpr ⟨_, hrecognized, ?_⟩
      simp [Mapper.respondsTo, hmissing]
    obtain rfl := Except.ok.inj (ht.symm.trans hreason)
    exact verdictLine_some _ t _

/-- The line of a template, wherever it stands in the table. -/
theorem judged_verdictLines {m : Mapper} {message : Message}
    {report : List (Template × Option String)}
    (h : ∀ entry ∈ report, (m.verdict message entry.1).outcome = .ok entry.2)
    {before later : List Template} {t : Template}
    (hsplit : report.map Prod.fst = before ++ t :: later) :
    ∃ line, (verdictLines false report)[before.length]? = some line ∧
      Judged m message before t line := by
  obtain ⟨front, rest, rfl, rfl, hrest⟩ := List.map_eq_append_iff.mp hsplit
  obtain ⟨entry, back, rfl, rfl, -⟩ := List.map_eq_cons_iff.mp hrest
  refine ⟨_, ?_, judged_verdictLine (h entry (by simp))
    fun entry hentry => h entry (List.mem_append_left _ hentry)⟩
  simp [verdictLines_append, verdictLines, length_verdictLines]

/-- Where there is the line of a match, a template has been chosen. -/
theorem isSome_chosen_of_isMatchLine {report : List (Template × Option String)} {line : String}
    (hline : line ∈ verdictLines false report) (hmatch : isMatchLine line) :
    (Mapper.chosen report).isSome := by
  have hpos := List.countP_pos_iff.mpr ⟨line, hline, hmatch⟩
  rw [countP_isMatchLine] at hpos
  rw [isSome_chosen]
  cases hany : report.any fun entry => entry.2.isNone with
  | true => rfl
  | false => simp [hany] at hpos

/-! ### The rest of a check -/

/-- A check with a winner ends with what would be called. -/
theorem outcome_check_of_chosen {m : Mapper} {message : Message}
    {report : List (Template × Option String)} {t : Template} {arguments : Arguments}
    (hreport : (m.explain message).2.outcome = .ok report)
    (hchosen : Mapper.chosen report = some t)
    (hrecognized : (t.recognize message).outcome = .ok (.recognized arguments)) :
    (check m message).outcome = .ok {
      code := 0
      output := verdictLines false report ++
        ["", t.action ++ "(" ++ arguments.shown ++ ") if " ++ t.path ++ " is allowed"] } := by
  have hwinner : winner? report = some t := hchosen
  rw [check, Attempt.outcome_bind]
  refine Except.bind_eq_ok_iff.mpr ⟨report, hreport, ?_⟩
  simp only [hwinner, Attempt.outcome_bind]
  exact Except.bind_eq_ok_iff.mpr ⟨_, hrecognized, rfl⟩

/-- A check without a winner ends with the fallback. -/
theorem outcome_check_of_not_chosen {m : Mapper} {message : Message}
    {report : List (Template × Option String)}
    (hreport : (m.explain message).2.outcome = .ok report)
    (hchosen : Mapper.chosen report = none) :
    (check m message).outcome = .ok {
      code := (fallbackReport m).code
      output := verdictLines false report ++ (fallbackReport m).output } := by
  have hwinner : winner? report = none := hchosen
  rw [check, Attempt.outcome_bind]
  refine Except.bind_eq_ok_iff.mpr ⟨report, hreport, ?_⟩
  simp only [hwinner]
  rfl

/-- The fallback has one line, after an empty one. -/
theorem output_fallbackReport (m : Mapper) : ∃ last, (fallbackReport m).output = ["", last] := by
  unfold fallbackReport
  split
  · exact ⟨_, rfl⟩
  · split <;> exact ⟨_, rfl⟩

/-- The fallback makes a check succeed when it is set, not empty and there. -/
theorem code_fallbackReport (m : Mapper) :
    (fallbackReport m).code = 0 ↔
      ∃ name handler, m.fallback = some name ∧ name ≠ "" ∧
        m.target.handler? name = some handler := by
  unfold fallbackReport Mapper.respondsTo
  cases hfallback : m.fallback with
  | none => simp
  | some name =>
      by_cases hname : name = ""
      · simp [Option.filter, hname]
      · cases hhandler : m.target.handler? name <;> simp [Option.filter, hname, hhandler]

/-- The message that the options of a check describe. -/
def checkedMessage (text : String) (isPrivate : Bool) (source replyto : Option String) :
    Message where
  text := text
  isPrivate := isPrivate
  source := optionalText source
  replyto := optionalText replyto

/-- A check that has a report is run to its end. -/
theorem runCommand_check {host : HostModule} {importString : String} {m : Mapper}
    (hresolve : host.resolve importString = .ok m) (debug : Bool) (text : String) (isPrivate : Bool)
    (source replyto : Option String) {found : CheckReport}
    (h : (check m (checkedMessage text isPrivate source replyto)).outcome = .ok found) :
    ∃ errors, runCommand host debug (.check importString text isPrivate source replyto) =
      .exited found.code (lines found.output) errors := by
  rw [runCommand, withMapper, hresolve]
  rw [checkedMessage] at h
  simp only [Attempt.value_run, h]
  exact ⟨_, rfl⟩

/-! ### Dispatch when everything is allowed -/

/-- The dispatch behind a question that is answered with yes, when the method does not fail. -/
def allowedDispatch (message : Message) (path method : String) (arguments : Arguments) :
    Dispatch where
  asked := [{ path, source := message.source, replyto := message.replyto, allowed := true }]
  calls := [{ method, message, arguments }]
  outcome := .ok true

/-- When everything is allowed, a method that does not fail is called. -/
theorem guarded_trusting (m : Mapper) (message : Message) (path method : String)
    {handler : Handler} (h : handler.failure = none) (arguments : Arguments) :
    m.trusting.guarded message path method handler arguments =
      allowedDispatch message path method arguments := by
  have hending : handler.ending = .ok true := by rw [Handler.ending, h]
  simp [Mapper.guarded, Mapper.answer, Mapper.trusting, Oracle.allowAll, allowedDispatch, hending]

/-- **The two ways of a dispatch that nobody forbids**: the chosen template is run, or, if there is
none, the fallback succeeds when the last line of a check says so. -/
theorem handle_trusting {m : Mapper} {message : Message} {report : List (Template × Option String)}
    (hcalm : ∀ method handler, m.target.handler? method = some handler → handler.failure = none)
    (htemplates : report.map Prod.fst = m.templates)
    (hentries : ∀ entry ∈ report, (m.verdict message entry.1).outcome = .ok entry.2) :
    (∃ t arguments, Mapper.chosen report = some t ∧
        (t.recognize message).outcome = .ok (.recognized arguments) ∧
        (m.trusting.handle message).value.2 =
          allowedDispatch message t.path t.action arguments) ∨
      (Mapper.chosen report = none ∧
        ((fallbackReport m).code = 0 ↔
          (m.trusting.handle message).value.2.outcome = .ok true)) := by
  have hsame : m.trusting.templates = report.map Prod.fst := htemplates.symm
  rw [Mapper.snd_handle, hsame]
  rcases Mapper.tryTemplates_of_report (m := m.trusting.freeze) hentries [] with
    ⟨t, handler, arguments, hchosen, htakes, hrun⟩ | ⟨more, hchosen, hrun⟩
  · have hcalled := guarded_trusting m.freeze message t.path t.action
      (hcalm t.action handler htakes.responds) arguments
    exact .inl ⟨t, arguments, hchosen, htakes.recognizes, hrun.trans hcalled⟩
  · refine .inr ⟨hchosen, ?_⟩
    rw [code_fallbackReport, hrun]
    rcases m.fallback_cases with ⟨name, handler, hfallback, hname, hhandler⟩ | hnothing
    · have hcalled := guarded_trusting m.freeze message name name (hcalm name handler hhandler) []
      rw [Mapper.tryFallback_of_some (m := m.trusting.freeze) hfallback hname hhandler message more]
      exact ⟨fun _ => congrArg Dispatch.outcome hcalled,
        fun _ => ⟨name, handler, hfallback, hname, hhandler⟩⟩
    · rw [Mapper.tryFallback_of_none (m := m.trusting.freeze) hnothing message more]
      constructor
      · rintro ⟨name, handler, hfallback, hname, hhandler⟩
        rcases hnothing name hfallback with hempty | hmissing
        · exact absurd hempty hname
        · rw [hmissing] at hhandler
          cases hhandler
      · intro hfalse
        cases hfalse

/-! ### The main result -/

/-- **A check predicts dispatch.** Take a mapper that an import string leads to, whose methods do
not fail, and the same mapper with an oracle that allows everything. A check exits with 0 exactly
when handling the message there runs a method. It writes one line for each template, in their
order: a match for the first template that would run, a shadow for every later one, and why it is
skipped for every other, one that recognizes the message without an action among them. So there is
at most one match, and when there is one, handling asks one question and makes one call, which are
the path, the action and the arguments of the last line. -/
theorem check_predicts_dispatch {host : HostModule} {importString : String} {m : Mapper}
    (hresolve : host.resolve importString = .ok m) (hreachable : m.Reachable)
    (hcalm : ∀ method handler, m.target.handler? method = some handler → handler.failure = none)
    (debug : Bool) (text : String) (isPrivate : Bool) (source replyto : Option String) :
    let message := checkedMessage text isPrivate source replyto
    let dispatch := (m.trusting.handle message).value.2
    ∃ code body last errors,
      runCommand host debug (.check importString text isPrivate source replyto) =
        .exited code (lines (body ++ ["", last])) errors ∧
      (code = 0 ↔ dispatch.outcome = .ok true) ∧
      body.length = m.templates.length ∧
      (∀ before t later, m.templates = before ++ t :: later →
        ∃ line, body[before.length]? = some line ∧ Judged m message before t line) ∧
      body.countP isMatchLine ≤ 1 ∧
      ((∃ line ∈ body, isMatchLine line) → ∃ question call,
        dispatch.asked = [question] ∧ dispatch.calls = [call] ∧ call.message = message ∧
          last = call.method ++ "(" ++ call.arguments.shown ++ ") if " ++ question.path ++
            " is allowed") := by
  intro message dispatch
  obtain ⟨report, hreport, htemplates, hentries⟩ := hreachable.report message
  have hlength : (verdictLines false report).length = m.templates.length := by
    rw [length_verdictLines, ← htemplates, List.length_map]
  have hcount : (verdictLines false report).countP isMatchLine ≤ 1 := by
    rw [countP_isMatchLine]
    split <;> omega
  have hjudged : ∀ before t later, m.templates = before ++ t :: later →
      ∃ line, (verdictLines false report)[before.length]? = some line ∧
        Judged m message before t line :=
    fun _ _ _ hsplit => judged_verdictLines (m := m) hentries (htemplates.trans hsplit)
  rcases handle_trusting hcalm htemplates hentries with
    ⟨t, arguments, hchosen, hrecognized, hdispatch⟩ | ⟨hchosen, hfallback⟩
  · obtain ⟨errors, herrors⟩ := runCommand_check hresolve debug text isPrivate source replyto
      (outcome_check_of_chosen hreport hchosen hrecognized)
    refine ⟨_, _, _, errors, herrors, ?_, hlength, hjudged, hcount, ?_⟩
    · exact ⟨fun _ => congrArg Dispatch.outcome hdispatch, fun _ => rfl⟩
    · rintro -
      exact ⟨_, _, congrArg Dispatch.asked hdispatch, congrArg Dispatch.calls hdispatch, rfl, rfl⟩
  · obtain ⟨last, hlast⟩ := output_fallbackReport m
    obtain ⟨errors, herrors⟩ := runCommand_check hresolve debug text isPrivate source replyto
      (outcome_check_of_not_chosen hreport hchosen)
    rw [hlast] at herrors
    refine ⟨_, _, last, errors, herrors, hfallback, hlength, hjudged, hcount, ?_⟩
    rintro ⟨line, hline, hmatch⟩
    have hsome := isSome_chosen_of_isMatchLine hline hmatch
    rw [hchosen] at hsome
    cases hsome

/-- A porter who greets and announces, but does not wave. -/
def porchTarget : Target where
  members := [("name", .field (.text "porch")), ("greet", .method {}), ("announce", .method {})]
  shown := "<Porch>"

/-- The mapper of the porch before any template has been mapped. -/
def emptyPorch : Mapper := { target := porchTarget, oracle := .allowAllBut [], identity := "porch" }

/-- The mapper of the porch: three templates for whoever says hi, one of them without a method. -/
def porch : Mapper :=
  ((emptyPorch.perform (.map (.text "hi :who") { action := some "greet" })).perform
    (.map (.text "hi *rest") { action := some "wave" })).perform
      (.map (.text "hi *all") { action := some "announce" })

/-- The module of the porch. -/
def porchModule : HostModule where
  name := "porch"
  members := [("mapper", .mapper porch)]

theorem reachable_porch : porch.Reachable := by
  have hconfig : Config.make = .ok {} := rfl
  have hmake : Mapper.make porchTarget (.oracle (.allowAllBut [])) = .ok emptyPorch := rfl
  exact .step _ (.step _ (.step _ (.made hconfig hmake)))

/-- No method of the porch fails. -/
theorem failure_of_porch (method : String) (handler : Handler)
    (h : porch.target.handler? method = some handler) : handler.failure = none := by
  have hmem : (method, Member.method handler) ∈ porchTarget.members := Target.mem_of_handler? h
  simp only [porchTarget, List.mem_cons, Prod.mk.injEq, reduceCtorEq, and_false, Member.method.injEq,
    List.not_mem_nil, or_false, false_or] at hmem
  rcases hmem with ⟨-, rfl⟩ | ⟨-, rfl⟩ <;> rfl

/-- The check on the porch has a line for each of its three templates, and it succeeds because the
porter greets. -/
theorem check_predicts_dispatch_porch :
    porchModule.resolve "porch" = .ok porch ∧ porch.Reachable ∧
      (∀ method handler, porch.target.handler? method = some handler → handler.failure = none) ∧
      (porch.trusting.handle (checkedMessage "hi bob" false none none)).value.2.outcome = .ok true ∧
      ∃ body last errors,
        runCommand porchModule false (.check "porch" "hi bob" false none none) =
          .exited 0 (lines (body ++ ["", last])) errors ∧
        body.length = 3 ∧ body.countP isMatchLine ≤ 1 := by
  have hresolve : porchModule.resolve "porch" = .ok porch := rfl
  have hhandled : (porch.trusting.handle (checkedMessage "hi bob" false none none)).value.2.outcome
      = .ok true := rfl
  obtain ⟨code, body, last, errors, hrun, hcode, hlength, -, hcount, -⟩ :=
    check_predicts_dispatch hresolve reachable_porch failure_of_porch false "hi bob" false none none
  obtain rfl := hcode.mpr hhandled
  exact ⟨hresolve, reachable_porch, failure_of_porch, hhandled, body, last, errors, hrun, hlength,
    hcount⟩

/-- Recognizing a message does not make a template after the match a shadow: the second template of
the porch recognizes the greeting, but nobody there can wave, and it is skipped. -/
theorem recognized_but_skipped :
    let message := checkedMessage "hi bob" false none none
    ∃ first second third,
      porch.templates = [first, second, third] ∧
      (∃ arguments, (second.recognize message).outcome = .ok (.recognized arguments)) ∧
      runCommand porchModule false (.check "porch" "hi bob" false none none) =
        .exited 0 (lines [matchLine first,
          "  skip   'hi *rest': porch does not respond to action 'wave'", shadowLine third, "",
          "greet(\x7b'who': 'bob'\x7d) if porch::hi is allowed"]) "" ∧
      skipLine second "porch does not respond to action 'wave'" ≠ shadowLine second := by
  refine ⟨_, _, _, rfl, ⟨_, rfl⟩, ?_, ?_⟩
  · decide +kernel
  · decide +kernel

end Cli

end Switchboard
