import Switchboard.Proofs.Mapper.Registry

/-!
# The Order of Templates

A message goes to the first template that would run, so the order in which templates were mapped decides
between those that would run for the same message, and between no others. Dispatch depends on the
table only through the template that is chosen from the report about the message
(`Mapper.handle_congr`). What is said of a template does not depend on where it stands, so another order
of the table is another order of the report (`Mapper.reportOn`). Where at most one verdict is
empty, the first one is the same in all orders (`find?_eq_of_perm`), and templates behind an empty
verdict are never reached.

## Main results

* `Mapper.order_matters_only_on_overlap`: tables in another order, and tables with more templates.
-/

namespace Switchboard

/-- Where at most one member of a list passes a test, it is the first to do so in every order. -/
theorem find?_eq_of_perm {α : Type} {p : α → Bool} {xs ys : List α} (hperm : xs.Perm ys)
    (hone : xs.countP p ≤ 1) : xs.find? p = ys.find? p := by
  have hfilter : (xs.filter p).Perm (ys.filter p) := hperm.filter p
  rw [List.countP_eq_length_filter] at hone
  rw [← List.head?_filter, ← List.head?_filter]
  cases hxs : xs.filter p with
  | nil =>
      rw [hxs] at hfilter
      rw [List.nil_perm.mp hfilter]
  | cons x more =>
      rw [hxs, List.length_cons] at hone
      obtain rfl : more = [] := List.eq_nil_of_length_eq_zero (by omega)
      rw [hxs] at hfilter
      rw [List.singleton_perm.mp hfilter]

namespace Mapper

/-- Two mappers with the same surroundings: the same target under the same name, the same fallback, and
oracles that give the same answers. Their tables may be different ones. -/
structure Alike (m other : Mapper) : Prop where
  target_eq : other.target = m.target
  identity_eq : other.identity = m.identity
  fallback_eq : other.fallback = m.fallback
  answer_eq : ∀ path message, other.answer path message = m.answer path message

/-- What the verdict about a template says against it, if anything. -/
def reason (m : Mapper) (message : Message) (t : Template) : Option String :=
  match (m.verdict message t).outcome with
  | .ok reason => reason
  | .error _ => none

/-- The templates in their order, each with what is said against it. -/
def reportOn (m : Mapper) (message : Message) : List (Template × Option String) :=
  m.templates.map fun t => (t, m.reason message t)

/-! ### The report and the dispatch -/

/-- What a mapper explains is its report. -/
theorem Reachable.outcome_explain {m : Mapper} (h : m.Reachable) (message : Message) :
    (m.explain message).2.outcome = .ok (m.reportOn message) ∧
      ∀ entry ∈ m.reportOn message, (m.freeze.verdict message entry.1).outcome = .ok entry.2 := by
  obtain ⟨report, hreport, htemplates, hentries⟩ := h.report message
  have hsame : report = m.reportOn message := by
    have hentry : ∀ entry ∈ report, entry = (entry.1, m.freeze.reason message entry.1) := by
      intro entry hentry
      rw [reason, hentries entry hentry]
    calc report = report.map id := (List.map_id report).symm
      _ = report.map fun entry => (entry.1, m.freeze.reason message entry.1) :=
        List.map_congr_left hentry
      _ = (report.map Prod.fst).map fun t => (t, m.freeze.reason message t) := by
        rw [List.map_map]
        rfl
      _ = m.reportOn message := by
        rw [htemplates]
        rfl
  exact ⟨hsame ▸ hreport, hsame ▸ hentries⟩

/-- The templates of a report are those of the mapper. -/
theorem map_fst_reportOn (m : Mapper) (message : Message) :
    (m.reportOn message).map Prod.fst = m.templates := by
  rw [reportOn, List.map_map]
  exact List.map_id m.templates

namespace Alike

variable {m other : Mapper}

theorem reason_eq (h : m.Alike other) (message : Message) : other.reason message = m.reason message := by
  have hverdict : other.verdict message = m.verdict message :=
    verdict_congr h.identity_eq (fun action => by rw [respondsTo, respondsTo, h.target_eq]) message
  funext t
  rw [reason, reason, hverdict]

theorem guarded_eq (h : m.Alike other) (message : Message) (path method : String) (handler : Handler)
    (arguments : Arguments) :
    other.guarded message path method handler arguments =
      m.guarded message path method handler arguments := by
  simp only [guarded, h.answer_eq]

/-- The fallback is called by both or by neither, whatever has been tried before. -/
theorem tryFallback_eq (h : m.Alike other) (message : Message)
    (reasons others : List (Template × String)) :
    (other.tryFallback message others).value = (m.tryFallback message reasons).value := by
  rcases m.fallback_cases with ⟨name, handler, hfallback, hname, hhandler⟩ | hnothing
  · rw [tryFallback_of_some hfallback hname hhandler]
    rw [← h.fallback_eq] at hfallback
    rw [← h.target_eq] at hhandler
    rw [tryFallback_of_some hfallback hname hhandler, h.guarded_eq]
  · rw [tryFallback_of_none hnothing]
    rw [← h.fallback_eq, ← h.target_eq] at hnothing
    exact tryFallback_of_none hnothing message others

end Alike

/-- **Dispatch depends on the chosen template.** Where the same template is chosen from the reports of two
mappers with the same surroundings, or none from either, they do the same with the message. -/
theorem handle_congr {m other : Mapper} (hm : m.Reachable) (hother : other.Reachable)
    (halike : m.Alike other) {message : Message}
    (hchosen : chosen (other.reportOn message) = chosen (m.reportOn message)) :
    (other.handle message).value.2 = (m.handle message).value.2 := by
  have hfrozen : m.freeze.Alike other.freeze :=
    ⟨halike.target_eq, halike.identity_eq, halike.fallback_eq, halike.answer_eq⟩
  rw [snd_handle, snd_handle, ← map_fst_reportOn m message, ← map_fst_reportOn other message]
  rcases tryTemplates_of_report (hm.outcome_explain message).2 [] with
    ⟨t, handler, arguments, ht, htakes, hrun⟩ | ⟨reasons, hnone, hrun⟩
  · rcases tryTemplates_of_report (hother.outcome_explain message).2 [] with
      ⟨t', handler', arguments', ht', htakes', hrun'⟩ | ⟨reasons', hnone', -⟩
    · -- A template takes a message in one way: with the method of the target and one list of arguments.
      obtain rfl : t' = t := Option.some.inj (ht'.symm.trans (hchosen.trans ht))
      have hresponds := htakes'.responds
      rw [hfrozen.target_eq, htakes.responds] at hresponds
      obtain rfl := Option.some.inj hresponds
      obtain rfl := Recognition.recognized.inj
        (Except.ok.inj (htakes.recognizes.symm.trans htakes'.recognizes))
      rw [hrun, hrun', hfrozen.guarded_eq]
    · rw [← hchosen, hnone'] at ht
      cases ht
  · rcases tryTemplates_of_report (hother.outcome_explain message).2 [] with
      ⟨t', handler', arguments', ht', -, -⟩ | ⟨reasons', -, hrun'⟩
    · rw [← hchosen, ht'] at hnone
      cases hnone
    · rw [hrun, hrun', hfrozen.tryFallback_eq message reasons reasons']

/-! ### More templates -/

/-- Mapping templates one after the other. -/
def mapSteps (more : List (Value × TemplateOptions)) : List Step :=
  more.map fun (template, options) => .map template options

/-- Mapping templates changes nothing of a mapper but its table, and there only the end. -/
theorem after_mapSteps (m : Mapper) (more : List (Value × TemplateOptions)) :
    ∃ added, m.after (mapSteps more) = { m with templates := m.templates ++ added } := by
  induction more generalizing m with
  | nil => exact ⟨[], by simp [mapSteps]⟩
  | cons first more ih =>
      obtain ⟨template, options⟩ := first
      obtain ⟨added, hadded⟩ := ih (m.perform (.map template options))
      rw [mapSteps, List.map_cons, after_cons, ← mapSteps, hadded]
      cases hmap : (m.map template options).outcome with
      | error e => exact ⟨added, by simp only [perform, hmap]⟩
      | ok result =>
          obtain ⟨mapped, t⟩ := result
          obtain ⟨-, -, rfl⟩ := map_eq_ok_iff.mp hmap
          exact ⟨t :: added, by simp [perform, hmap]⟩

/-! ### The main result -/

/-- **The order of templates matters only where they overlap.** Let two mappers have the same surroundings
and the same templates, in whatever order. For a message of which the report says at most once that
nothing speaks against a template, both ask the same question, make the same call and end alike. And
where the report of a mapper says so of some template, mapping more templates before the first
message changes none of this. -/
theorem order_matters_only_on_overlap :
    (∀ {m other : Mapper}, m.Reachable → other.Reachable → m.Alike other →
      m.templates.Perm other.templates → ∀ message report,
        (m.explain message).2.outcome = .ok report →
        report.countP (fun entry => entry.2.isNone) ≤ 1 →
        (other.handle message).value.2 = (m.handle message).value.2) ∧
    ∀ {m : Mapper}, m.Reachable → ∀ message report,
      (m.explain message).2.outcome = .ok report → (∃ entry ∈ report, entry.2 = none) →
      ∀ more, ((m.after (mapSteps more)).handle message).value.2 = (m.handle message).value.2 := by
  constructor
  · intro m other hm hother halike hperm message report hreport hone
    obtain rfl := Except.ok.inj ((hm.outcome_explain message).1.symm.trans hreport)
    have hreports : (m.reportOn message).Perm (other.reportOn message) := by
      rw [reportOn, reportOn, halike.reason_eq]
      exact hperm.map _
    refine handle_congr hm hother halike ?_
    rw [chosen, chosen, find?_eq_of_perm hreports hone]
  · rintro m hm message report hreport ⟨entry, hentry, hnone⟩ more
    obtain rfl := Except.ok.inj ((hm.outcome_explain message).1.symm.trans hreport)
    obtain ⟨added, hadded⟩ := after_mapSteps m more
    have hafter := hm.after (mapSteps more)
    rw [hadded] at hafter ⊢
    have hlonger : { m with templates := m.templates ++ added }.reportOn message =
        m.reportOn message ++ added.map fun t => (t, m.reason message t) := List.map_append
    have hfound : ((m.reportOn message).find? fun entry => entry.2.isNone).isSome :=
      List.find?_isSome.mpr ⟨entry, hentry, by rw [hnone]; rfl⟩
    refine handle_congr hm hafter ⟨rfl, rfl, rfl, fun _ _ => rfl⟩ ?_
    rw [hlonger, chosen, chosen, List.find?_append, Option.or_of_isSome hfound]

/-- The mapper of the hall with its two templates mapped the other way round. -/
def turnedHall : Mapper :=
  (emptyHall.perform (.map (.text "hi *rest") { action := some "greet" })).perform
    (.map (.text "hi :who") { action := some "wave" })

/-- In the hall only the greeting speaks for itself, so it is all the same which template was mapped
first, and whether a third one for the same words comes after them. -/
theorem order_matters_only_on_overlap_hall :
    let message : Message := { text := "hi bob" }
    let more := [(.text "hi :you", { action := some "greet" })]
    turnedHall.templates.map Template.text ≠ hall.templates.map Template.text ∧
      (turnedHall.handle message).value.2 = (hall.handle message).value.2 ∧
      (hall.after (mapSteps more)).templates.length = 3 ∧
      ((hall.after (mapSteps more)).handle message).value.2 = (hall.handle message).value.2 := by
  intro message more
  have hconfig : Config.make = .ok {} := rfl
  have hmake : Mapper.make hallTarget (.oracle .allowAll) = .ok emptyHall := rfl
  have hturned : turnedHall.Reachable := .step _ (.step _ (.made hconfig hmake))
  have halike : hall.Alike turnedHall := ⟨rfl, rfl, rfl, fun _ _ => rfl⟩
  have hperm : hall.templates.Perm turnedHall.templates := List.reverse_perm turnedHall.templates
  have hreport := (reachable_hall.outcome_explain message).1
  have hone : (hall.reportOn message).countP (fun entry => entry.2.isNone) = 1 := by decide
  obtain ⟨entry, hentry, hnone⟩ := List.countP_pos_iff.mp (hone ▸ Nat.one_pos)
  obtain ⟨horder, hmore⟩ := order_matters_only_on_overlap
  refine ⟨by decide, horder reachable_hall hturned halike hperm message _ hreport (Nat.le_of_eq hone),
    by decide, hmore reachable_hall message _ hreport ⟨entry, hentry, ?_⟩ more⟩
  exact Option.isNone_iff_eq_none.mp hnone

end Mapper

end Switchboard
