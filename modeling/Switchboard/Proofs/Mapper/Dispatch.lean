import Switchboard.Proofs.Mapper.History

/-!
# Dispatch Follows the Report

`Mapper.explain` and `Mapper.handle` go through the templates separately: one collects a verdict
for each of them, the other stops at the first that it can run. This module shows that they agree.
A verdict is empty exactly when the template recognizes the message and the target has its action
(`Mapper.verdict_eq_none_iff`), handling passes over a template exactly when its verdict is not
empty (`Mapper.tryTemplates_passed`, `Mapper.tryTemplates_taken`), and so handling does what the
first empty verdict of the report says (`Mapper.tryTemplates_of_report`).

Whatever is called is called behind one question to the oracle. `Mapper.guarded` is that dispatch:
one question, then one call or none.

## Main results

* `Mapper.handle_follows_explain`: what a message leads to, read off the report about it.
* `Mapper.matching_never_fails`: matching, explaining and handling have no failure of their own.
-/

namespace Switchboard

/-- How a call of a method ends: with its failure if it has one. -/
def Handler.ending (handler : Handler) : Except DispatchError Bool :=
  match handler.failure with
  | some text => .error (.handler text)
  | none => .ok true

namespace Mapper

/-- What the oracle of a mapper answers about a path. -/
def answer (m : Mapper) (path : String) (message : Message) : Bool :=
  (m.oracle.allow path message.source message.replyto).value

/-- A dispatch behind one question. A yes leads to one call, and the dispatch ends as the call
does; a no leads to nothing. -/
def guarded (m : Mapper) (message : Message) (path method : String) (handler : Handler)
    (arguments : Arguments) : Dispatch :=
  let allowed := m.answer path message
  { asked := [{ path, source := message.source, replyto := message.replyto, allowed }]
    calls := if allowed then [{ method, message, arguments }] else []
    outcome := if allowed then handler.ending else .ok false }

/-- A template that takes a message: it recognizes it, and the target has its action. -/
structure Takes (m : Mapper) (message : Message) (t : Template) (handler : Handler)
    (arguments : Arguments) : Prop where
  recognizes : (t.recognize message).outcome = .ok (.recognized arguments)
  responds : m.target.handler? t.action = some handler

/-- The first template of a report that nothing speaks against. -/
def chosen (report : List (Template × Option String)) : Option Template :=
  (report.find? fun entry => entry.2.isNone).map (·.1)

/-! ### One template -/

/-- A sound template gets a verdict. -/
theorem verdict_ok (m : Mapper) (message : Message) {t : Template} (h : t.Sound) :
    ∃ reason, (m.verdict message t).outcome = .ok reason := by
  obtain ⟨result, hresult⟩ := Template.recognize_ok h message
  rw [verdict, Attempt.outcome_bind, hresult]
  cases result <;> exact ⟨_, rfl⟩

/-- The verdict is empty exactly for the templates that take the message. -/
theorem verdict_eq_none_iff {m : Mapper} {message : Message} {t : Template} :
    (m.verdict message t).outcome = .ok none ↔
      ∃ handler arguments, m.Takes message t handler arguments := by
  rw [verdict, Attempt.outcome_bind, Except.bind_eq_ok_iff]
  constructor
  · rintro ⟨result, hresult, hverdict⟩
    cases result with
    | rejected failure => cases hverdict
    | recognized arguments =>
        cases hhandler : m.target.handler? t.action with
        | none => simp [respondsTo, hhandler] at hverdict
        | some handler => exact ⟨handler, arguments, hresult, hhandler⟩
  · rintro ⟨handler, arguments, hrecognizes, hresponds⟩
    exact ⟨.recognized arguments, hrecognizes, by simp [respondsTo, hresponds]⟩

/-- A template that takes the message ends the search, behind its own path. -/
theorem tryTemplates_taken {m : Mapper} {message : Message} {t : Template} {handler : Handler}
    {arguments : Arguments} (h : m.Takes message t handler arguments)
    (reasons : List (Template × String)) (ts : List Template) :
    (m.tryTemplates message reasons (t :: ts)).value =
      m.guarded message t.path t.action handler arguments := by
  rw [tryTemplates, Journal.value_bind, Attempt.value_run, h.recognizes]
  simp only [h.responds]
  unfold runTemplate guarded answer
  simp only [Journal.value_bind, ask, Journal.value_pure]
  cases (m.oracle.allow t.path message.source message.replyto).value with
  | true =>
      simp only [if_true, Journal.value_bind, Journal.value_pure]
      cases hfailure : handler.failure <;> simp [call, Handler.ending, hfailure]
  | false => rfl

/-- A template with a reason against it is passed over, and the reason is kept. -/
theorem tryTemplates_passed {m : Mapper} {message : Message} {t : Template} {reason : String}
    (h : (m.verdict message t).outcome = .ok (some reason)) (reasons : List (Template × String))
    (ts : List Template) :
    (m.tryTemplates message reasons (t :: ts)).value =
      (m.tryTemplates message (reasons ++ [(t, reason)]) ts).value := by
  rw [verdict, Attempt.outcome_bind, Except.bind_eq_ok_iff] at h
  obtain ⟨result, hresult, hverdict⟩ := h
  rw [tryTemplates, Journal.value_bind, Attempt.value_run, hresult]
  cases result with
  | rejected failure =>
      obtain rfl := Option.some.inj (Except.ok.inj hverdict)
      rfl
  | recognized arguments =>
      cases hhandler : m.target.handler? t.action with
      | none =>
          simp only [respondsTo, hhandler, Attempt.outcome_pure, Option.isSome_none,
            Bool.false_eq_true, if_false, Except.ok.injEq, Option.some.injEq] at hverdict
          subst hverdict
          rfl
      | some handler => simp [respondsTo, hhandler] at hverdict

/-! ### The fallback -/

/-- The fallback is tried when it is set, not empty and there. -/
theorem tryFallback_of_some {m : Mapper} {name : String} {handler : Handler}
    (hfallback : m.fallback = some name) (hname : name ≠ "")
    (hhandler : m.target.handler? name = some handler) (message : Message)
    (reasons : List (Template × String)) :
    (m.tryFallback message reasons).value = m.guarded message name name handler [] := by
  unfold tryFallback guarded answer
  simp only [Journal.value_bind, hfallback, String.isEmpty_iff, hname, if_false, hhandler, ask,
    Journal.value_pure]
  cases (m.oracle.allow name message.source message.replyto).value with
  | true =>
      simp only [if_true, Journal.value_pure]
      cases hfailure : handler.failure <;> simp [call, Handler.ending, hfailure]
  | false => rfl

/-- Otherwise nothing happens. -/
theorem tryFallback_of_none {m : Mapper}
    (h : ∀ name, m.fallback = some name → name = "" ∨ m.target.handler? name = none)
    (message : Message) (reasons : List (Template × String)) :
    (m.tryFallback message reasons).value = .nothing := by
  unfold tryFallback
  simp only [Journal.value_bind]
  cases hfallback : m.fallback with
  | none => rfl
  | some name =>
      rcases h name hfallback with rfl | hhandler
      · rfl
      · by_cases hname : name.isEmpty = true
        · simp [hname]
        · simp [hname, hhandler]

/-- A fallback that is not set, not empty and there is one of the two. -/
theorem fallback_cases (m : Mapper) :
    (∃ name handler, m.fallback = some name ∧ name ≠ "" ∧
        m.target.handler? name = some handler) ∨
      ∀ name, m.fallback = some name → name = "" ∨ m.target.handler? name = none := by
  cases hfallback : m.fallback with
  | none => exact .inr fun _ h => nomatch h
  | some name =>
      cases hhandler : m.target.handler? name with
      | none => exact .inr fun _ h => .inr (Option.some.inj h ▸ hhandler)
      | some handler =>
          by_cases hname : name = ""
          · exact .inr fun _ h => .inl (Option.some.inj h ▸ hname)
          · exact .inl ⟨name, handler, rfl, hname, hhandler⟩

/-! ### The whole table -/

/-- Sound templates get a report: a verdict for each, in their order. -/
theorem verdicts_ok (m : Mapper) (message : Message) {ts : List Template}
    (h : ∀ t ∈ ts, t.Sound) :
    ∃ report, (m.verdicts message ts).outcome = .ok report ∧ report.map Prod.fst = ts ∧
      ∀ entry ∈ report, (m.verdict message entry.1).outcome = .ok entry.2 := by
  induction ts with
  | nil => exact ⟨[], rfl, rfl, fun _ hentry => nomatch hentry⟩
  | cons t ts ih =>
      obtain ⟨reason, hreason⟩ := m.verdict_ok message (h t List.mem_cons_self)
      obtain ⟨report, hreport, htemplates, hentries⟩ :=
        ih fun u hu => h u (List.mem_cons_of_mem _ hu)
      refine ⟨(t, reason) :: report, ?_, ?_, ?_⟩
      · simp only [verdicts, Attempt.outcome_bind, hreason, hreport]
        rfl
      · simp only [List.map_cons, htemplates]
      · intro entry hentry
        rcases List.mem_cons.mp hentry with rfl | hentry
        · exact hreason
        · exact hentries entry hentry

/-- **Handling follows the report.** The first template without a reason against it is run; when
there is none the fallback is tried. -/
theorem tryTemplates_of_report {m : Mapper} {message : Message}
    {report : List (Template × Option String)}
    (h : ∀ entry ∈ report, (m.verdict message entry.1).outcome = .ok entry.2)
    (reasons : List (Template × String)) :
    (∃ t handler arguments, chosen report = some t ∧ m.Takes message t handler arguments ∧
        (m.tryTemplates message reasons (report.map Prod.fst)).value =
          m.guarded message t.path t.action handler arguments) ∨
      (∃ more, chosen report = none ∧
        (m.tryTemplates message reasons (report.map Prod.fst)).value =
          (m.tryFallback message more).value) := by
  induction report generalizing reasons with
  | nil => exact .inr ⟨reasons, rfl, rfl⟩
  | cons entry report ih =>
      obtain ⟨t, reason⟩ := entry
      have hverdict := h (t, reason) List.mem_cons_self
      cases reason with
      | none =>
          obtain ⟨handler, arguments, htakes⟩ := verdict_eq_none_iff.mp hverdict
          exact .inl ⟨t, handler, arguments, rfl, htakes, tryTemplates_taken htakes _ _⟩
      | some reason =>
          have hchosen : chosen ((t, some reason) :: report) = chosen report := rfl
          rw [hchosen, List.map_cons, tryTemplates_passed hverdict]
          exact ih (fun entry hentry => h entry (List.mem_cons_of_mem _ hentry)) _

/-! ### Explaining asks nobody -/

/-- The verdict about a template depends on the name and the methods of a mapper. -/
theorem verdict_congr {m other : Mapper} (hidentity : other.identity = m.identity)
    (hresponds : ∀ action, other.respondsTo action = m.respondsTo action) (message : Message) :
    other.verdict message = m.verdict message := by
  funext t
  have hmissing : other.missingAction t = m.missingAction t := by rw [missingAction, missingAction, hidentity]
  simp only [verdict, hresponds, hmissing]

/-- The report depends on the templates, the name and the methods of a mapper. In particular the
oracle has no part in it, and neither has what a method would do when called. -/
theorem explain_congr {m other : Mapper} (htemplates : other.templates = m.templates)
    (hidentity : other.identity = m.identity)
    (hresponds : ∀ action, other.respondsTo action = m.respondsTo action) (message : Message) :
    (other.explain message).2 = (m.explain message).2 := by
  have hverdict : other.freeze.verdict message = m.freeze.verdict message :=
    verdict_congr hidentity hresponds message
  have hverdicts : ∀ ts, other.freeze.verdicts message ts = m.freeze.verdicts message ts := by
    intro ts
    induction ts with
    | nil => rfl
    | cons t ts ih => simp only [verdicts, hverdict, ih]
  simp only [explain, htemplates, hverdicts]

/-! ### Whatever is called is guarded -/

/-- A reachable mapper has a report about every message. -/
theorem Reachable.report {m : Mapper} (h : m.Reachable) (message : Message) :
    ∃ report, (m.explain message).2.outcome = .ok report ∧ report.map Prod.fst = m.templates ∧
      ∀ entry ∈ report, (m.freeze.verdict message entry.1).outcome = .ok entry.2 :=
  m.freeze.verdicts_ok message fun _ ht => h.sound ht

/-- **One question before any call.** Handling a message is a guarded call of a method that is
there, or nothing at all. -/
theorem Reachable.handle_cases {m : Mapper} (h : m.Reachable) (message : Message) :
    (∃ path method handler arguments, m.target.handler? method = some handler ∧
        (m.handle message).value.2 = m.guarded message path method handler arguments) ∨
      (m.handle message).value.2 = .nothing := by
  obtain ⟨report, -, htemplates, hentries⟩ := h.report message
  rw [snd_handle, ← htemplates]
  rcases tryTemplates_of_report hentries [] with
    ⟨t, handler, arguments, -, htakes, hrun⟩ | ⟨more, -, hrun⟩
  · exact .inl ⟨t.path, t.action, handler, arguments, htakes.responds, hrun⟩
  · rcases m.fallback_cases with ⟨name, handler, hfallback, hname, hhandler⟩ | hnothing
    · have hguarded := tryFallback_of_some (m := m.freeze) hfallback hname hhandler message more
      exact .inl ⟨name, name, handler, [], hhandler, hrun.trans hguarded⟩
    · have hnone := tryFallback_of_none (m := m.freeze) hnothing message more
      exact .inr (hrun.trans hnone)

/-- A guarded dispatch calls its method or nothing. -/
theorem calls_guarded (m : Mapper) (message : Message) (path method : String) (handler : Handler)
    (arguments : Arguments) :
    (m.guarded message path method handler arguments).calls =
      if m.answer path message then [{ method, message, arguments }] else [] := rfl

/-- No private method is called. -/
theorem Reachable.not_private {m : Mapper} (h : m.Reachable) (message : Message) {c : Call}
    (hc : c ∈ (m.handle message).value.2.calls) : c.method.toList.head? ≠ some '_' := by
  intro hprivate
  rcases h.handle_cases message with
    ⟨path, method, handler, arguments, hhandler, hvalue⟩ | hvalue
  · rw [hvalue, calls_guarded] at hc
    cases hanswer : m.answer path message with
    | true =>
        simp only [hanswer, if_true, List.mem_singleton] at hc
        subst hc
        rw [m.target.handler?_private hprivate] at hhandler
        cases hhandler
    | false => simp [hanswer] at hc
  · rw [hvalue] at hc
    cases hc

/-- **Handling follows the report.** Whatever a mapper has gone through, it has a report about
every message. If nothing speaks against some template of the report, the first such template
decides: the oracle is asked once, for its path, and a yes leads to one call of its action with
the arguments that the template recognizes. If something speaks against each of them, the same is
done for the fallback without arguments, provided that it is set, not empty and there; and if it
is not, nothing is. No private method is ever called. The report itself is the same for every
oracle and for all methods of the same names, whatever they do. -/
theorem handle_follows_explain {m : Mapper} (h : m.Reachable) (message : Message) :
    let dispatch := (m.handle message).value.2
    ∃ report, (m.explain message).2.outcome = .ok report ∧ report.map Prod.fst = m.templates ∧
      (∀ t, chosen report = some t → ∃ handler arguments,
        m.target.handler? t.action = some handler ∧
          (t.recognize message).outcome = .ok (.recognized arguments) ∧
          dispatch = m.guarded message t.path t.action handler arguments) ∧
      (chosen report = none →
        (∀ name handler, m.fallback = some name → name ≠ "" →
          m.target.handler? name = some handler →
          dispatch = m.guarded message name name handler []) ∧
        ((∀ name, m.fallback = some name → name = "" ∨ m.target.handler? name = none) →
          dispatch = .nothing)) ∧
      (∀ c ∈ dispatch.calls, c.method.toList.head? ≠ some '_') ∧
      ∀ other : Mapper, other.templates = m.templates → other.identity = m.identity →
        (∀ action, other.respondsTo action = m.respondsTo action) →
          (other.explain message).2 = (m.explain message).2 := by
  intro dispatch
  obtain ⟨report, hreport, htemplates, hentries⟩ := h.report message
  have hdispatch : dispatch =
      (m.freeze.tryTemplates message [] (report.map Prod.fst)).value := by
    rw [htemplates]
    rfl
  refine ⟨report, hreport, htemplates, ?_, ?_, fun _ hc => h.not_private message hc,
    fun _ htemplates hidentity hresponds => explain_congr htemplates hidentity hresponds message⟩
  · intro t ht
    rcases tryTemplates_of_report hentries [] with
      ⟨t', handler, arguments, hchosen, htakes, hvalue⟩ | ⟨more, hchosen, -⟩
    · obtain rfl := Option.some.inj (hchosen.symm.trans ht)
      exact ⟨handler, arguments, htakes.responds, htakes.recognizes, hdispatch.trans hvalue⟩
    · rw [hchosen] at ht
      cases ht
  · intro hnone
    rcases tryTemplates_of_report hentries [] with
      ⟨t', handler, arguments, hchosen, -, -⟩ | ⟨more, -, hvalue⟩
    · rw [hchosen] at hnone
      cases hnone
    · rw [hdispatch, hvalue]
      exact ⟨fun name handler hfallback hname hhandler =>
          tryFallback_of_some (m := m.freeze) hfallback hname hhandler message more,
        fun hnothing => tryFallback_of_none (m := m.freeze) hnothing message more⟩

/-- The hall of a house: its porter can greet, but is busy, and nobody can wave. -/
def hallTarget : Target where
  members := [("name", .field (.text "hall")), ("greet", .method { failure := some "busy" })]
  shown := "<Hall>"

/-- The mapper of the hall before any template has been mapped. -/
def emptyHall : Mapper := { target := hallTarget, oracle := .allowAll, identity := "hall" }

/-- The mapper of the hall: whoever says hi is waved at, or else greeted. -/
def hall : Mapper :=
  (emptyHall.perform (.map (.text "hi :who") { action := some "wave" })).perform
    (.map (.text "hi *rest") { action := some "greet" })

/-- The mapper of the hall has been made and has gone through two steps. -/
theorem reachable_hall : hall.Reachable := by
  have hconfig : Config.make = .ok {} := rfl
  have hmake : Mapper.make hallTarget (.oracle .allowAll) = .ok emptyHall := rfl
  exact .step _ (.step _ (.made hconfig hmake))

/-- In the hall a message passes over the first template, whose action nobody has, and reaches the
second, whose method fails. -/
theorem handle_follows_explain_hall :
    let message : Message := { text := "hi bob" }
    hall.Reachable ∧ hall.templates.length = 2 ∧
      (hall.handle message).value.2.calls.map Call.method = ["greet"] ∧
      ∃ report, (hall.explain message).2.outcome = .ok report ∧
        report.map Prod.fst = hall.templates ∧
        ∀ c ∈ (hall.handle message).value.2.calls, c.method.toList.head? ≠ some '_' := by
  intro message
  obtain ⟨report, hreport, htemplates, -, -, hprivate, -⟩ :=
    handle_follows_explain reachable_hall message
  exact ⟨reachable_hall, by decide, by decide, report, hreport, htemplates, hprivate⟩

/-- The requirement for a name in angle brackets, of which the brackets are left out. -/
def bracketed : Value :=
  match Pattern.read "<(\\w+)>" with
  | .ok p => .tuple [.pattern p, .int 1]
  | .error _ => .null

/-- A template with a collector. -/
def seen : Template :=
  match (Template.compile "hall" (.text "seen :nick") { requirements := [("nick", bracketed)] }
      ).outcome with
  | .ok t => t
  | .error _ => default

end Mapper

end Switchboard
