import Switchboard.Proofs.Requirement.Acceptance
import Switchboard.Template.Compile
import Switchboard.Template.Recognize

/-!
# What Compiling Guarantees

Matching a message never checks a group number: it relies on two checks made once, while the
template was compiled. The pattern must have as many groups as the template has parameters, and
a collector that names a group must name one that its pattern has. `Template.Sound` is the
conjunction of the two. It holds of every template that `compile` returns
(`Template.sound_of_compile`), and it is all that matching needs (`Template.recognize_ok`).

## Main results

* `Template.compile_eq_ok_iff`: what a template is that compiling returns.
* `Template.sound_of_compile`: it has the groups that it will be asked for.
* `Template.recognize_ok`: matching a sound template has a result for every message.
-/

namespace Switchboard

/-! ### Collectors -/

namespace Collector

/-- A collector in range picks something or nothing, but never asks for a missing group. -/
theorem pick_ok {c : Collector} (h : c.InRange) (text : String) :
    ∃ picked, c.pick text = .ok picked := by
  unfold pick
  split
  · exact ⟨none, rfl⟩
  · split
    case h_1 index hindex => rw [if_pos (h index hindex)]; exact ⟨_, rfl⟩
    case h_2 => exact ⟨_, rfl⟩

end Collector

namespace Template

/-! ### The steps of compiling -/

/-- The template that compiling puts together. -/
def assembled (text : String) (items : List Item) (parameters : List Parameter)
    (pattern : Pattern) (path : String) (options : TemplateOptions) (channel : Channel) :
    Template where
  text := text
  items := items
  parameters := parameters
  pattern := pattern
  action := actionOf items options
  path := path
  inPublic := options.inPublic
  inPrivate := options.inPrivate
  defaults := options.defaults
  requirements := options.requirements
  channel := channel

/-- A template value has items exactly when it is a text that has them. -/
theorem ofValue_eq_ok_iff {template : Value} {text : String} {items : List Item} :
    Item.ofValue template = .ok (text, items)
      ↔ template = .text text ∧ Item.ofText text = .ok items := by
  cases template with
  | text s =>
      simp only [Item.ofValue, Except.map_eq_ok_iff, Except.mapError_eq_ok_iff, Prod.mk.injEq,
        Value.text.injEq]
      constructor
      · rintro ⟨items', hitems, rfl, rfl⟩
        exact ⟨rfl, hitems⟩
      · rintro ⟨rfl, hitems⟩
        exact ⟨items, hitems, rfl, rfl⟩
  | _ => simp [Item.ofValue]

/-- **What compiling returns.** A template is compiled exactly when it is a text whose items,
parameters, pattern and path can all be worked out, and it is put together from them. -/
theorem compile_eq_ok_iff {identity separator : String} {template : Value}
    {options : TemplateOptions} {channel : Channel} {t : Template} :
    (compile identity template options separator channel).outcome = .ok t ↔
      ∃ text items parameters pattern path,
        template = .text text ∧ Item.ofText text = .ok items ∧
        (parametersOf options items).outcome = .ok parameters ∧
        patternOf text options parameters = .ok pattern ∧
        pathOf identity separator items options = .ok path ∧
        t = assembled text items parameters pattern path options channel := by
  simp only [compile, Attempt.outcome_bind, Attempt.outcome_ofExcept, Attempt.outcome_adapt,
    Attempt.outcome_lift, Attempt.outcome_pure, Except.bind_eq_ok_iff, Except.mapError_eq_ok_iff,
    Prod.exists, Except.ok.injEq, exists_const, true_and, exists_and_left, ofValue_eq_ok_iff]
  constructor
  · rintro ⟨text, items, ⟨htext, hitems⟩, parameters, hparameters, pattern, hpattern,
      path, hpath, rfl⟩
    exact ⟨text, htext, items, hitems, parameters, hparameters, pattern, hpattern, path, hpath,
      rfl⟩
  · rintro ⟨text, htext, items, hitems, parameters, hparameters, pattern, hpattern, path, hpath,
      rfl⟩
    exact ⟨text, items, ⟨htext, hitems⟩, parameters, hparameters, pattern, hpattern, path, hpath,
      rfl⟩

/-- The pattern of a template has one group for each parameter. -/
theorem patternOf_eq_ok_iff {text : String} {options : TemplateOptions}
    {parameters : List Parameter} {pattern : Pattern} :
    patternOf text options parameters = .ok pattern ↔
      ∃ source, patternSource text options.defaults options.requirements = .ok source ∧
        Pattern.read (String.ofList source) { multiline := true } = .ok pattern ∧
        pattern.groups = parameters.length := by
  simp only [patternOf, Except.bind_eq_ok_iff, Except.mapError_eq_ok_iff]
  constructor
  · rintro ⟨source, hsource, pattern', hread, hcount⟩
    split at hcount
    case isTrue heq =>
      obtain rfl := Except.ok.inj hcount
      exact ⟨source, hsource, hread, by simpa using heq⟩
    case isFalse => cases hcount
  · rintro ⟨source, hsource, hread, hcount⟩
    exact ⟨source, hsource, pattern, hread, by simp [hcount]⟩

/-- Compiling goes through the items one by one; each is a parameter or adds nothing. -/
theorem mem_parametersOf {options : TemplateOptions} {items : List Item}
    {parameters : List Parameter} (h : (parametersOf options items).outcome = .ok parameters)
    {p : Parameter} (hp : p ∈ parameters) :
    ∃ item ∈ items, (parameter? options item).outcome = .ok (some p) := by
  induction items generalizing parameters with
  | nil =>
      obtain rfl := Except.ok.inj h
      cases hp
  | cons item items ih =>
      simp only [parametersOf, Attempt.outcome_bind, Except.bind_eq_ok_iff,
        Attempt.outcome_pure] at h
      obtain ⟨first, hfirst, rest, hrest, h⟩ := h
      obtain rfl := Except.ok.inj h
      rcases List.mem_append.mp hp with hp | hp
      · obtain rfl := Option.mem_toList.mp hp
        exact ⟨item, List.mem_cons_self, hfirst⟩
      · obtain ⟨found, hmem, hfound⟩ := ih hrest hp
        exact ⟨found, List.mem_cons_of_mem _ hmem, hfound⟩

/-- The collector of a parameter comes from a requirement. -/
theorem inRange_of_parameter? {options : TemplateOptions} {item : Item} {p : Parameter}
    (h : (parameter? options item).outcome = .ok (some p)) {c : Collector}
    (hc : p.collector = some c) : c.InRange := by
  unfold parameter? at h
  split at h
  · rw [Attempt.outcome_bind] at h
    obtain ⟨collector, hcollector, h⟩ := Except.bind_eq_ok_iff.mp h
    obtain rfl := Option.some.inj (Except.ok.inj h)
    subst hc
    exact Collector.inRange_of_ofRequirement hcollector
  · cases h

/-! ### Sound templates -/

/-- A template that has every group it will be asked for. -/
structure Sound (t : Template) : Prop where
  /-- The pattern has one group for each parameter. -/
  groups_eq : t.pattern.groups = t.parameters.length
  /-- The collectors name groups of their own patterns. -/
  inRange : ∀ p ∈ t.parameters, ∀ c, p.collector = some c → c.InRange

/-- **Compiled templates are sound**: the two checks that matching relies on were made. -/
theorem sound_of_compile {identity separator : String} {template : Value}
    {options : TemplateOptions} {channel : Channel} {t : Template}
    (h : (compile identity template options separator channel).outcome = .ok t) : t.Sound := by
  obtain ⟨text, items, parameters, pattern, path, -, -, hparameters, hpattern, -, rfl⟩ :=
    compile_eq_ok_iff.mp h
  obtain ⟨source, -, -, hcount⟩ := patternOf_eq_ok_iff.mp hpattern
  refine ⟨hcount, ?_⟩
  intro p hp c hc
  obtain ⟨item, -, hitem⟩ := mem_parametersOf hparameters hp
  exact inRange_of_parameter? hitem hc

/-! ### Matching sound templates -/

/-- There are as many texts of groups as the pattern has groups. -/
theorem length_matchedTexts (t : Template) (found : Pattern.Match) :
    (t.matchedTexts found).length = t.pattern.groups := by
  simp [matchedTexts, Pattern.Match.groups]

/-- Binding one parameter does not fail when its collector is in range. -/
theorem bind_ok (t : Template) {p : Parameter} (h : ∀ c, p.collector = some c → c.InRange)
    (matched : Option String) : ∃ argument, (t.bind p matched).outcome = .ok argument := by
  unfold bind
  split
  · exact ⟨_, rfl⟩
  · exact ⟨_, rfl⟩
  case h_3 text _ =>
    have hcollect : ∃ picked, (p.collect text).outcome = .ok picked := by
      unfold Parameter.collect
      split
      · exact ⟨_, rfl⟩
      case h_2 c hc =>
        obtain ⟨picked, hpicked⟩ := Collector.pick_ok (h c hc) text
        refine ⟨picked, ?_⟩
        rw [Attempt.outcome_bind, Attempt.outcome_ofExcept, hpicked]
        cases picked <;> rfl
    obtain ⟨picked, hpicked⟩ := hcollect
    exact ⟨picked.map (.value ∘ .text), by rw [Attempt.outcome_bind, hpicked]; rfl⟩
  case h_4 =>
    cases h : t.defaults.has p.name <;> exact ⟨_, rfl⟩

/-- Binding all parameters does not fail when there is a group for each of them. -/
theorem bindAll_ok (t : Template) {parameters : List Parameter} {texts : List (Option String)}
    (hrange : ∀ p ∈ parameters, ∀ c, p.collector = some c → c.InRange)
    (hlength : parameters.length ≤ texts.length) :
    ∃ arguments, (t.bindAll parameters texts).outcome = .ok arguments := by
  induction parameters generalizing texts with
  | nil => exact ⟨[], rfl⟩
  | cons p ps ih =>
      cases texts with
      | nil => simp at hlength
      | cons matched more =>
          obtain ⟨argument, hargument⟩ := t.bind_ok (hrange p List.mem_cons_self) matched
          obtain ⟨rest, hrest⟩ := ih (fun q hq => hrange q (List.mem_cons_of_mem _ hq))
            (Nat.le_of_succ_le_succ hlength)
          refine ⟨(argument.map fun a => (p.name, a)).toList ++ rest, ?_⟩
          simp only [bindAll, Attempt.outcome_bind, hargument, hrest]
          rfl

/-- **Matching has a result.** A sound template recognizes a message or rejects it. -/
theorem recognize_ok {t : Template} (h : t.Sound) (message : Message) :
    ∃ result, (t.recognize message).outcome = .ok result := by
  simp only [recognize, Attempt.outcome_bind, Attempt.outcome_lift]
  cases t.refusal? message.isPrivate with
  | some failure => exact ⟨_, rfl⟩
  | none =>
      cases t.pattern.search message.text with
      | none => exact ⟨_, rfl⟩
      | some found =>
          have hlength : t.parameters.length ≤ (t.matchedTexts found).length := by
            exact Nat.le_of_eq (h.groups_eq.symm.trans (t.length_matchedTexts found).symm)
          obtain ⟨arguments, harguments⟩ := t.bindAll_ok h.inRange hlength
          by_cases heq : (String.ofList found.text == message.text) = true
          · refine ⟨.recognized arguments, ?_⟩
            simp only [heq, if_true, Attempt.outcome_bind, Attempt.outcome_lift, harguments]
            rfl
          · refine ⟨.rejected (.partialMatch (String.ofList found.text)), ?_⟩
            simp only [heq]
            rfl

end Template

end Switchboard
