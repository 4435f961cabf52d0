import Switchboard.Proofs.Pattern.Rewritable
import Switchboard.Proofs.Template.Spliced

/-!
# What Compiling Rejects

Compiling fails at the items of a template, at a requirement, at the pattern text, when the pattern text
is read, at the number of groups, or at the path. Each of these reports the template or the requirement,
except the pattern text: making the groups of a required pattern plain can fail with an error of its own.
It does not where the comments of the required patterns are harmless, so then compiling fails only in
the two documented ways (`Template.compile_fails_as_documented`).

The pattern text is also where references go wrong. The groups of a required pattern become plain and its
references stay, so that they mean groups of the template. A name is never found there, and a number is
found only when as many parameters stand in front. Where one is not found, the template is rejected
(`Template.reference_beyond_rejected`).

## Main results

* `exists_slot_of_patternSource`: a pattern text fails only at a parameter.
* `Template.cases_of_compile_eq_error`: why compiling fails.
* `Template.compile_fails_as_documented`: no other error gets out.
* `Template.reference_beyond_rejected`: a template with a reference that finds no group is rejected.
-/

namespace Switchboard

open Pattern

/-! ### Where a pattern text fails -/

/-- A lexeme that is a parameter is one among the items. -/
theorem exists_item_of_mem {ls : List Lexeme} {depth : Nat} {items : List Item}
    (h : Item.ofLexemes depth ls = .ok items) {w : List Char} (hw : .word w ∈ ls) {slot : Slot}
    (hslot : Slot.ofWord? w = some slot) :
    ∃ item ∈ items, item.name? = some (String.ofList slot.name) := by
  obtain ⟨-, rfl⟩ := Item.ofLexemes_eq_ok_iff.mp h
  obtain ⟨inside, hplaced⟩ := Lexeme.exists_mem_placedWords depth hw
  refine ⟨⟨.parameter (String.ofList slot.name) slot.multi, inside⟩, ?_, rfl⟩
  refine List.mem_flatMap.mpr ⟨_, hplaced, ?_⟩
  rw [Item.ofWord, hslot]
  exact List.mem_cons_self

/-- Lexemes have no pattern text only where a parameter among them has none. -/
theorem exists_slot_of_lexemesSource {defaults requirements : Bindings} {space glued : Bool}
    {ls : List Lexeme} {e : FragmentError}
    (h : lexemesSource defaults requirements space glued ls = .error e) :
    ∃ w slot, .word w ∈ ls ∧ Slot.ofWord? w = some slot ∧ valueSource requirements slot = .error e := by
  induction ls generalizing space glued with
  | nil => cases h
  | cons l ls ih =>
      have hmore : ∀ {space glued}, lexemesSource defaults requirements space glued ls = .error e →
          ∃ w slot, .word w ∈ l :: ls ∧ Slot.ofWord? w = some slot ∧
            valueSource requirements slot = .error e := by
        intro space glued h
        obtain ⟨w, slot, hw, hslot⟩ := ih h
        exact ⟨w, slot, List.mem_cons_of_mem _ hw, hslot⟩
      cases l with
      | blank run => exact hmore h
      | opening | closing => exact hmore (Except.map_eq_error_iff.mp h)
      | word text =>
          rw [lexemesSource] at h
          rcases Except.bind_eq_error_iff.mp h with hword | ⟨source, -, h⟩
          · rw [wordSource] at hword
            cases hslot : Slot.ofWord? text with
            | none =>
                rw [hslot] at hword
                cases hword
            | some slot =>
                simp only [hslot] at hword
                rcases Except.bind_eq_error_iff.mp hword with hvalue | ⟨value, -, hvalue⟩
                · exact ⟨text, slot, List.mem_cons_self, hslot, hvalue⟩
                · cases hvalue
          · rcases Except.bind_eq_error_iff.mp h with hrest | ⟨rest, -, hrest⟩
            · exact hmore hrest
            · cases hrest

/-- **A template has no pattern text** only where one of its parameters has none. -/
theorem exists_slot_of_patternSource {text : String} {items : List Item}
    (hitems : Item.ofText text = .ok items) {defaults requirements : Bindings} {e : FragmentError}
    (h : patternSource text defaults requirements = .error e) :
    ∃ item ∈ items, ∃ slot, item.name? = some (String.ofList slot.name) ∧
      valueSource requirements slot = .error e := by
  obtain ⟨items', hlexemes, hcheck⟩ := Except.bind_eq_ok_iff.mp hitems
  obtain ⟨rfl, -⟩ := eq_cons_of_check hcheck
  obtain ⟨w, slot, hw, hslot, hvalue⟩ := exists_slot_of_lexemesSource (Except.map_eq_error_iff.mp h)
  obtain ⟨item, hitem, hname⟩ := exists_item_of_mem hlexemes hw hslot
  exact ⟨item, hitem, slot, hname, hvalue⟩

/-! ### Requirements that are accepted -/

namespace Template

/-- The requirements of the parameters of a template have been accepted. -/
theorem exists_ofRequirement_of_parametersOf {options : TemplateOptions} {items : List Item}
    {parameters : List Parameter} (h : (parametersOf options items).outcome = .ok parameters)
    {item : Item} (hitem : item ∈ items) {name : String} (hname : item.name? = some name) :
    ∃ c, (Collector.ofRequirement (options.requirements.getD name)).outcome = .ok c := by
  induction items generalizing parameters with
  | nil => cases hitem
  | cons first items ih =>
      simp only [parametersOf, Attempt.outcome_bind, Except.bind_eq_ok_iff] at h
      obtain ⟨p, hp, rest, hrest, -⟩ := h
      rcases List.mem_cons.mp hitem with rfl | hmem
      · obtain ⟨kind, optional⟩ := item
        cases kind with
        | parameter name' multi =>
            obtain rfl := Option.some.inj hname
            simp only [parameter?, Attempt.outcome_bind, Except.bind_eq_ok_iff] at hp
            obtain ⟨c, hc, -⟩ := hp
            exact ⟨c, hc⟩
        | _ => cases hname
      · exact ih hrest hmem

/-- **Where the requirements have been accepted** the template has a pattern text, as long as the
patterns among them can be put into others. -/
theorem exists_patternSource {text : String} {items : List Item} (hitems : Item.ofText text = .ok items)
    {options : TemplateOptions} (hsplice : EachRequired Pattern.Spliceable options.requirements items)
    {parameters : List Parameter}
    (hparameters : (parametersOf options items).outcome = .ok parameters) :
    ∃ source, patternSource text options.defaults options.requirements = .ok source := by
  cases h : patternSource text options.defaults options.requirements with
  | ok source => exact ⟨source, rfl⟩
  | error e =>
      obtain ⟨item, hitem, slot, hname, hvalue⟩ := exists_slot_of_patternSource hitems h
      obtain ⟨c, hc⟩ := exists_ofRequirement_of_parametersOf hparameters hitem hname
      rcases valueSource_cases options.requirements slot with ⟨p, hheld, hsource⟩ | ⟨hnone, -⟩
      · obtain ⟨text, inner, htext, -⟩ := (hsplice item hitem _ hname p hheld).exists_reads
        rw [hsource, patternFragment, htext] at hvalue
        cases hvalue
      · rcases (Collector.ofRequirement_eq_ok_iff.mp hc).held_or_textual with ⟨p, hheld⟩ | htextual
        · rw [hnone] at hheld
          cases hheld
        · rw [valueSource_eq_ok htextual] at hvalue
          cases hvalue

/-! ### The errors of compiling -/

/-- A template value without items is reported as a template that is wrong. -/
theorem exists_of_ofValue_eq_error {template : Value} {e : CompileError}
    (h : Item.ofValue template = .error e) : ∃ cause text, e = .template cause text := by
  cases template with
  | text s =>
      obtain ⟨cause, -, rfl⟩ := Except.mapError_eq_error_iff.mp (Except.map_eq_error_iff.mp h)
      exact ⟨cause, _, rfl⟩
  | _ => exact ⟨_, _, (Except.error.inj h).symm⟩

/-- The pattern of a template is missing where its text is, and otherwise the template is reported. -/
theorem cases_of_patternOf_eq_error {text : String} {options : TemplateOptions}
    {parameters : List Parameter} {e : CompileError} (h : patternOf text options parameters = .error e) :
    (∃ fault, patternSource text options.defaults options.requirements = .error fault ∧
      e = CompileError.ofFragment fault) ∨ ∃ cause text, e = .template cause text := by
  rw [patternOf] at h
  rcases Except.bind_eq_error_iff.mp h with hsource | ⟨source, -, h⟩
  · obtain ⟨fault, hfault, rfl⟩ := Except.mapError_eq_error_iff.mp hsource
    exact .inl ⟨fault, hfault, rfl⟩
  rcases Except.bind_eq_error_iff.mp h with hread | ⟨pattern, -, h⟩
  · obtain ⟨fault, -, rfl⟩ := Except.mapError_eq_error_iff.mp hread
    exact .inr ⟨_, _, rfl⟩
  · split at h
    · cases h
    · exact .inr ⟨_, _, (Except.error.inj h).symm⟩

/-- A template without a path is reported as wrong. -/
theorem exists_of_pathOf_eq_error {identity separator : String} {items : List Item}
    {options : TemplateOptions} {e : CompileError}
    (h : pathOf identity separator items options = .error e) : ∃ cause text, e = .template cause text := by
  rw [pathOf] at h
  split at h
  · cases h
  · obtain ⟨cause, -, rfl⟩ := Except.mapError_eq_error_iff.mp h
    exact ⟨cause, none, rfl⟩

/-- **Why compiling fails.** The template is reported as wrong, or a requirement is, or the pattern
text of a template is missing. -/
theorem cases_of_compile_eq_error {identity separator : String} {template : Value}
    {options : TemplateOptions} {channel : Channel} {e : CompileError}
    (h : (compile identity template options separator channel).outcome = .error e) :
    (∃ cause text, e = .template cause text) ∨ (∃ error, e = .requirement error) ∨
      ∃ text items fault, template = .text text ∧ Item.ofText text = .ok items ∧
        patternSource text options.defaults options.requirements = .error fault ∧
        e = CompileError.ofFragment fault := by
  simp only [compile, Attempt.outcome_bind, Attempt.outcome_ofExcept, Attempt.outcome_adapt,
    Attempt.outcome_lift, Attempt.outcome_pure] at h
  rcases Except.bind_eq_error_iff.mp h with hvalue | ⟨⟨text, items⟩, hvalue, h⟩
  · exact .inl (exists_of_ofValue_eq_error hvalue)
  rcases Except.bind_eq_error_iff.mp h with hparameters | ⟨parameters, -, h⟩
  · obtain ⟨error, -, rfl⟩ := Except.mapError_eq_error_iff.mp hparameters
    exact .inr (.inl ⟨error, rfl⟩)
  rw [Except.ok_bind] at h
  rcases Except.bind_eq_error_iff.mp h with hpattern | ⟨pattern, -, h⟩
  · rcases cases_of_patternOf_eq_error hpattern with ⟨fault, hsource, rfl⟩ | htemplate
    · obtain ⟨rfl, hitems⟩ := ofValue_eq_ok_iff.mp hvalue
      exact .inr (.inr ⟨text, items, fault, rfl, hitems, hsource, rfl⟩)
    · exact .inl htemplate
  simp only [Except.ok_bind] at h
  rcases Except.bind_eq_error_iff.mp h with hpath | ⟨path, -, h⟩
  · exact .inl (exists_of_pathOf_eq_error hpath)
  · cases h

/-- **Compiling fails as documented.** Whatever the template value and the requirements are, compiling
returns a template, or reports one that is wrong, or a requirement that is, as long as the patterns
required have harmless comments. -/
theorem compile_fails_as_documented (identity separator : String) (template : Value)
    (options : TemplateOptions) (channel : Channel)
    (hrewritable : ∀ text items, template = .text text → Item.ofText text = .ok items →
      EachRequired Pattern.Rewritable options.requirements items) :
    (∃ t, (compile identity template options separator channel).outcome = .ok t) ∨
    (∃ cause text, (compile identity template options separator channel).outcome =
      .error (.template cause text)) ∨
    ∃ error, (compile identity template options separator channel).outcome =
      .error (.requirement error) := by
  cases h : (compile identity template options separator channel).outcome with
  | ok t => exact .inl ⟨t, rfl⟩
  | error e =>
      rcases cases_of_compile_eq_error h with ⟨cause, text, rfl⟩ | ⟨error, rfl⟩ |
        ⟨text, items, fault, htemplate, hitems, hsource, rfl⟩
      · exact .inr (.inl ⟨cause, text, rfl⟩)
      · exact .inr (.inr ⟨error, rfl⟩)
      · obtain ⟨item, hitem, slot, hname, hvalue⟩ := exists_slot_of_patternSource hitems hsource
        rcases valueSource_cases options.requirements slot with
          ⟨p, hheld, hfragment⟩ | ⟨-, htextual | ⟨error, herror⟩⟩
        · obtain ⟨text', htext'⟩ :=
            (hrewritable text items htemplate hitems item hitem _ hname p hheld).exists_fragment
          rw [hfragment, patternFragment, htext'] at hvalue
          cases hvalue
        · rw [valueSource_eq_ok htextual] at hvalue
          cases hvalue
        · obtain rfl := Except.error.inj (herror.symm.trans hvalue)
          exact .inr (.inr ⟨error, rfl⟩)

/-- One requirement is the only one. -/
theorem eq_of_held?_singleton {key name : String} {p q : Pattern}
    (h : (Bindings.getD [(key, .pattern p)] name).held? = some q) : p = q := by
  rw [Bindings.getD, Bindings.get?, List.lookup_cons] at h
  split at h
  · exact Option.some.inj h
  · cases h

/-- A pattern with a comment that says something. -/
def remarkSource : String := "(?P<q>b)(?#(a)(?P=q)"

theorem compile_fails_as_documented_remark :
    ∃ p, Pattern.read remarkSource {} = .ok p ∧ p.Rewritable ∧
      ((∃ t, (compile "hall" (.text "w :p") { requirements := [("p", .pattern p)] }).outcome = .ok t) ∨
      (∃ cause text, (compile "hall" (.text "w :p") { requirements := [("p", .pattern p)] }).outcome =
        .error (.template cause text)) ∨
      ∃ error, (compile "hall" (.text "w :p") { requirements := [("p", .pattern p)] }).outcome =
        .error (.requirement error)) := by
  obtain ⟨p, hread, hverbose⟩ : ∃ p, Pattern.read remarkSource {} = .ok p ∧ p.modes.verbose = false :=
    ⟨_, rfl, rfl⟩
  have hsource := source_of_read hread
  have hrewritable : p.Rewritable := ⟨⟨{}, hsource ▸ hread⟩, by rw [hverbose, hsource]; decide +kernel⟩
  refine ⟨p, hread, hrewritable, compile_fails_as_documented "hall" "::" (.text "w :p") _ .template ?_⟩
  intro text items _ _ item _ name _ q hq
  exact eq_of_held?_singleton hq ▸ hrewritable

/-- The condition is needed: a comment with the opening of a group with a name makes the rewriting
fail. -/
theorem comment_opens_group_name :
    ∃ p, Pattern.read "(?#(?P<)a" {} = .ok p ∧
      (compile "hall" (.text "w :p") { requirements := [("p", .pattern p)] }).outcome =
        .error .openGroupName := ⟨_, rfl, rfl⟩

/-! ### References -/

/-- **A reference beyond the groups in front is rejected.** Let the requirement of a parameter hold a
pattern with a reference by name, or by a number greater than the number of parameters in front of it.
Then no template is compiled; and if the requirements are accepted by themselves, it is the pattern of
the template that is reported not to be one. -/
theorem reference_beyond_rejected {text : String} {items : List Item}
    (hitems : Item.ofText text = .ok items) {options : TemplateOptions}
    (hsplice : EachRequired Pattern.Spliceable options.requirements items) {before after : List Item} {item : Item}
    (hsplit : items = before ++ item :: after) {name : String} (hname : item.name? = some name)
    {p : Pattern} (hheld : (options.requirements.getD name).held? = some p) {token : Token}
    (htoken : token ∈ p.tokens) (hbeyond : ¬ token.RefersWithin (parameterCount before))
    (identity separator : String) (channel : Channel) :
    (∀ t, (compile identity (.text text) options separator channel).outcome ≠ .ok t) ∧
      ∀ parameters, (parametersOf options items).outcome = .ok parameters →
        ∃ source reason, (compile identity (.text text) options separator channel).outcome =
          .error (.template (.badPattern source reason) (some text)) := by
  have hread : ∀ source, patternSource text options.defaults options.requirements = .ok source →
      ∀ pattern, Pattern.read (String.ofList source) lineModes ≠ .ok pattern := by
    intro source hsource pattern hread
    obtain ⟨tokens, hreads, hgrouped⟩ := exists_reads_patternSource hitems hsplice hsource
    exact hbeyond (hgrouped.refersWithin hreads hread hsplit hname hheld token htoken)
  constructor
  · intro t ht
    obtain ⟨text', items', parameters, pattern, path, htext, -, -, hpattern, -⟩ := compile_eq_ok_iff.mp ht
    obtain rfl := Value.text.inj htext
    obtain ⟨source, hsource, hok, -⟩ := patternOf_eq_ok_iff.mp hpattern
    exact hread source hsource pattern hok
  · intro parameters hparameters
    obtain ⟨source, hsource⟩ := exists_patternSource hitems hsplice hparameters
    have hvalue : Item.ofValue (.text text) = .ok (text, items) := ofValue_eq_ok_iff.mpr ⟨rfl, hitems⟩
    cases hpattern : Pattern.read (String.ofList source) lineModes with
    | ok pattern => exact absurd hpattern (hread source hsource pattern)
    | error fault =>
        have herror : patternOf text options parameters = .error
            (.template (.badPattern (String.ofList source) (fault.message source)) (some text)) := by
          rw [patternOf, hsource]
          change ((Pattern.read (String.ofList source) lineModes).mapError _ >>= _) = _
          rw [hpattern]
          rfl
        refine ⟨String.ofList source, fault.message source, ?_⟩
        simp only [compile, Attempt.outcome_bind, Attempt.outcome_ofExcept, Attempt.outcome_adapt,
          Attempt.outcome_lift, hvalue, hparameters, Except.mapError, herror, Except.ok_bind,
          Except.error_bind]

/-- A pattern with a reference by name to a group of its own. -/
def doubledSource : String := "(?P<c>\\w)(?P=c)"

theorem reference_beyond_rejected_doubled :
    ∃ p, Pattern.read doubledSource {} = .ok p ∧ p.Spliceable ∧ .namedRef "c" ∈ p.tokens ∧
      (∀ t, (compile "hall" (.text "w :a :p") { requirements := [("p", .pattern p)] }).outcome ≠ .ok t) ∧
      ∃ source reason, (compile "hall" (.text "w :a :p") { requirements := [("p", .pattern p)] }).outcome =
        .error (.template (.badPattern source reason) (some "w :a :p")) := by
  obtain ⟨p, hread, hverbose⟩ : ∃ p, Pattern.read doubledSource {} = .ok p ∧ p.modes.verbose = false :=
    ⟨_, rfl, rfl⟩
  have hsource := source_of_read hread
  have hspliceable : p.Spliceable := ⟨⟨{}, hsource ▸ hread⟩, by rw [hverbose, hsource]; decide +kernel⟩
  have htoken : .namedRef "c" ∈ p.tokens := by
    rw [Pattern.tokens, hverbose, hsource]
    decide +kernel
  obtain ⟨items, before, item, hitems, hsplit, hname⟩ : ∃ items before item,
      Item.ofText "w :a :p" = .ok items ∧ items = before ++ [item] ∧ item.name? = some "p" :=
    ⟨_, [_, _], _, rfl, rfl, rfl⟩
  let options : TemplateOptions := { requirements := [("p", .pattern p)] }
  have hsplice : EachRequired Pattern.Spliceable options.requirements items :=
    fun item _ name _ q hq => eq_of_held?_singleton hq ▸ hspliceable
  have hheld : (options.requirements.getD "p").held? = some p := rfl
  obtain ⟨parameters, hparameters⟩ : ∃ parameters, (parametersOf options items).outcome = .ok parameters := by
    obtain rfl := Except.ok.inj hitems
    exact ⟨_, rfl⟩
  have hrejected :=
    reference_beyond_rejected hitems hsplice hsplit hname hheld htoken id "hall" "::" .template
  exact ⟨p, hread, hspliceable, htoken, hrejected.1, hrejected.2 _ hparameters⟩

/-- The bound is needed: a number that is not beyond the groups in front is rebound. Here it means the
first parameter, and a message is recognized with a second one that the pattern does not match. -/
theorem reference_rebound :
    ∃ p t, Pattern.read "(b)\\1" {} = .ok p ∧ (p.fullMatch "bx").isNone ∧
      (compile "hall" (.text "w :a :p") { requirements := [("p", .pattern p)] }).outcome = .ok t ∧
      ∃ arguments, (t.recognize { text := "w x bx" }).outcome = .ok (.recognized arguments) :=
  ⟨_, _, rfl, rfl, rfl, _, rfl⟩

end Template

end Switchboard
