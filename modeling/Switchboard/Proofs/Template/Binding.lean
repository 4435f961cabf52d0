import Switchboard.Proofs.Template.Groups
import Switchboard.Proofs.Template.Readings
import Switchboard.Proofs.Template.Settled

/-!
# What Parameters Are Bound To

A message that is recognized is a reading of its template, and the n-th group has captured what the
n-th parameter takes of it. Which reading it is depends on the order in which the ways are tried.
What handlers rely on holds of all of them, and so it is proved of readings, by induction on the
outline of the template.

Whether a parameter may be absent is computed twice. The items say it by the brackets that they
stand in and the defaults; the pattern says it by its optional groups. In a reading something is
not taken only in a segment that is left out, or by a parameter with a default, and these are the
parameters that the items call optional (`Outline.fits_of_readings`).

## Main results

* `MadeOfOutline.exists_reading`: a recognized message is a reading.
* `Template.required_parameters_present`: which parameters have an argument.
* `Template.bound_texts_validated`: what an argument from the message looks like.
-/

namespace Switchboard

open Pattern

/-! ### Arguments -/

/-- The argument of a parameter without a collector, by what it has taken. -/
def Parameter.argument? (defaults : Bindings) (p : Parameter) (taken : Option (List Char)) :
    Option Argument :=
  if p.multi then some (.words (restWords defaults p.name taken))
  else Switchboard.argument? (defaults.getD p.name) taken

/-- A parameter that has taken something is bound to it, or to it and its words. -/
theorem Parameter.argument?_some (defaults : Bindings) (p : Parameter) (value : List Char) :
    p.argument? defaults (some value) =
      some (if p.multi then .words (.ofText (String.ofList value))
        else .value (.text (String.ofList value))) := by
  rw [Parameter.argument?]
  cases p.multi <;> rfl

/-- The arguments of parameters, by what each of them has taken. -/
def boundArguments (defaults : Bindings) (parameters : List Parameter) (b : Takings) : Arguments :=
  (parameters.zip b).filterMap fun pair =>
    (pair.1.argument? defaults pair.2.2).map fun a => (pair.1.name, a)

theorem boundArguments_cons (defaults : Bindings) (p : Parameter) (ps : List Parameter)
    (entry : String × Option (List Char)) (b : Takings) :
    boundArguments defaults (p :: ps) (entry :: b) =
      ((p.argument? defaults entry.2).map fun a => (p.name, a)).toList ++
        boundArguments defaults ps b := by
  rw [boundArguments, List.zip_cons_cons, List.filterMap_cons]
  cases p.argument? defaults entry.2 <;> rfl

/-- Arguments have the names of their parameters, in the same order. -/
theorem names_boundArguments_sublist (defaults : Bindings) (ps : List Parameter) (b : Takings) :
    ((boundArguments defaults ps b).map (·.1)).Sublist (ps.map (·.name)) := by
  induction ps generalizing b with
  | nil => simp [boundArguments]
  | cons p ps ih =>
      cases b with
      | nil => simp [boundArguments]
      | cons entry b =>
          rw [boundArguments_cons, List.map_append, List.map_cons]
          cases p.argument? defaults entry.2 with
          | none => exact (ih b).cons p.name
          | some a => exact (ih b).cons_cons p.name

theorem mem_boundArguments {defaults : Bindings} {ps : List Parameter} {b : Takings} {p : Parameter}
    {entry : String × Option (List Char)} {a : Argument} (hmem : (p, entry) ∈ ps.zip b)
    (ha : p.argument? defaults entry.2 = some a) :
    (p.name, a) ∈ boundArguments defaults ps b :=
  List.mem_filterMap.mpr ⟨_, hmem, by rw [ha]; rfl⟩

/-- The text of a group is what the parameter of this group has taken. -/
theorem exists_taken_of_mem_zip {ps : List Parameter} {b : Takings} {p : Parameter} {text : String}
    (h : (p, some text) ∈ ps.zip (b.map fun entry => entry.2.map String.ofList)) :
    ∃ name value, (p, name, some value) ∈ ps.zip b ∧ text = String.ofList value := by
  rw [List.zip_map_right] at h
  obtain ⟨⟨q, name, taken⟩, hzip, heq⟩ := List.mem_map.mp h
  obtain ⟨hq, htaken⟩ := Prod.mk.inj heq
  obtain rfl : q = p := hq
  obtain ⟨value, rfl, rfl⟩ := Option.map_eq_some_iff.mp htaken
  exact ⟨name, value, hzip, rfl⟩

/-! ### Parameters and readings -/

/-- What has been taken fits the parameter: one that is not optional has taken something, and what it
has taken is what it may be bound to. -/
structure Parameter.Fits (defaults requirements : Bindings) (p : Parameter)
    (entry : String × Option (List Char)) : Prop where
  default_eq : p.default = defaults.getD p.name
  collector_eq : p.collector = none
  exists_taken : p.optional = false → ∃ value, entry.2 = some value
  admits : ∀ value, entry.2 = some value →
    (Extent.ofRequirement p.multi (requirements.getD p.name)).Admits value

/-- The parameter of the part may be bound to what the requirements say. -/
def Part.Meets (requirements : Bindings) : Part → Prop
  | .literal _ => True
  | .parameter name extent _ _ => extent = .ofRequirement extent.multi (requirements.getD name)

theorem Part.meets_ofWord (defaults requirements : Bindings) (w : List Char) :
    (Part.ofWord defaults requirements w).Meets requirements := by
  rw [Part.ofWord]
  cases Slot.ofWord? w with
  | none => trivial
  | some slot => simp only [Part.Meets, multi_ofRequirement]

section

variable {defaults requirements : Bindings}

/-- Where nothing has been taken, it fits parameters that are optional. -/
theorem Outline.fits_untaken (o : Outline Part) :
    List.Forall₂ (Parameter.Fits defaults requirements) (o.parameters defaults true) o.untaken := by
  unfold untaken
  induction o with
  | done gap => exact .nil
  | word gap part rest ih =>
      refine List.rel_append ?_ ih
      cases part with
      | literal text => exact .nil
      | parameter name extent optional suffix => exact .cons ⟨rfl, rfl, nofun, nofun⟩ .nil
  | segment gap body rest ihbody ihrest =>
      rw [words, List.flatMap_append]
      exact List.rel_append ihbody ihrest

/-- What a part takes fits its parameter. -/
theorem Part.fits_of_readings {part : Part} (hmeets : part.Meets requirements) {lead : Bool}
    {cs : List Char} {b : Takings} (h : part.readings lead cs b) (optional : Bool) :
    List.Forall₂ (Parameter.Fits defaults requirements)
      ((part.parameter? defaults).map fun p => { p with optional := optional || p.optional }).toList
      b := by
  cases part with
  | literal text =>
      obtain ⟨_, _, -, ⟨-, rfl⟩, -⟩ := Readings.of_append_iff.mp h
      exact .nil
  | parameter name extent skippable suffix =>
      have hkept : ∀ {ds : List Char} (optional : Bool),
          (Readings.of (IsLead lead)).append (.taken name extent.Admits) ds b →
          List.Forall₂ (Parameter.Fits defaults requirements)
            [{ name, multi := extent.multi, optional, default := defaults.getD name }] b := by
        intro ds optional hgroup
        obtain ⟨_, value, -, ⟨hvalue, rfl⟩, -⟩ := Readings.of_append_iff.mp hgroup
        refine .cons ⟨rfl, rfl, fun _ => ⟨value, rfl⟩, ?_⟩ .nil
        rintro _ ⟨⟩
        rwa [← hmeets]
      obtain ⟨_, _, hvalue, -, -⟩ := Readings.append_of_iff.mp h
      cases skippable with
      | false => exact hkept _ hvalue
      | true =>
          rcases hvalue with hgroup | ⟨-, rfl⟩
          · exact hkept _ hgroup
          · have hoptional : (optional || true) = true := Bool.or_true optional
            exact .cons ⟨rfl, rfl, fun h => absurd (hoptional.symm.trans h) nofun, nofun⟩ .nil

/-- **What is taken in a reading fits the parameters.** -/
theorem Outline.fits_of_readings {o : Outline Part} (hmeets : ∀ part ∈ o.words, part.Meets requirements)
    {glued : Bool} {cs : List Char} {b : Takings} (h : o.readings glued cs b) (optional : Bool) :
    List.Forall₂ (Parameter.Fits defaults requirements) (o.parameters defaults optional) b := by
  induction o generalizing glued cs b optional with
  | done gap =>
      obtain ⟨-, rfl⟩ := h
      exact .nil
  | word gap part rest ih =>
      obtain ⟨_, _, _, _, hpart, hrest, -, rfl⟩ := h
      exact List.rel_append (Part.fits_of_readings (hmeets part List.mem_cons_self) hpart optional)
        (ih (fun p hp => hmeets p (List.mem_cons_of_mem part hp)) hrest optional)
  | segment gap body rest ihbody ihrest =>
      obtain ⟨_, _, _, _, hsegment, hrest, -, rfl⟩ := h
      refine List.rel_append ?_
        (ihrest (fun p hp => hmeets p (List.mem_append_right _ hp)) hrest optional)
      -- in a segment all parameters are optional, so nothing need be taken when it is left out
      rcases hsegment with hkept | ⟨-, rfl⟩
      · obtain ⟨_, _, -, hbody, -⟩ := Readings.of_append_iff.mp hkept
        exact ihbody (fun p hp => hmeets p (List.mem_append_left _ hp)) hbody true
      · exact body.fits_untaken

end

/-- The argument of a parameter, by what its group has captured. -/
theorem outcome_bind_of_fits {t : Template} {requirements : Bindings} {p : Parameter}
    {entry : String × Option (List Char)} (h : p.Fits t.defaults requirements entry) :
    (t.bind p (entry.2.map String.ofList)).outcome = .ok (p.argument? t.defaults entry.2) := by
  rw [Parameter.argument?]
  cases hmulti : p.multi with
  | true => exact outcome_bind_rest t hmulti h.default_eq entry.2
  | false =>
      rw [← h.default_eq]
      exact outcome_bind_word t hmulti h.collector_eq entry.2

/-- **Arguments** of parameters, by what their groups have captured. -/
theorem outcome_bindAll_of_fits {t : Template} {requirements : Bindings} {ps : List Parameter}
    {b : Takings} (h : List.Forall₂ (Parameter.Fits t.defaults requirements) ps b) :
    (t.bindAll ps (b.map fun entry => entry.2.map String.ofList)).outcome =
      .ok (boundArguments t.defaults ps b) := by
  induction h with
  | nil => rfl
  | cons hfirst _ ih =>
      rw [boundArguments_cons]
      exact outcome_bindAll_cons (outcome_bind_of_fits hfirst) ih

/-! ### The order of what is taken -/

/-- The pieces occur in the text one behind the other. -/
inductive InOrder : List (List Char) → List Char → Prop where
  | nil (text : List Char) : InOrder [] text
  | cons (gap piece : List Char) {pieces : List (List Char)} {rest : List Char}
      (hrest : InOrder pieces rest) : InOrder (piece :: pieces) (gap ++ piece ++ rest)

theorem InOrder.skip {pieces : List (List Char)} {text : List Char} (h : InOrder pieces text)
    (gap : List Char) : InOrder pieces (gap ++ text) := by
  cases h with
  | nil => exact .nil _
  | cons gap' piece hrest =>
      rw [List.append_assoc, ← List.append_assoc, ← List.append_assoc]
      exact .cons (gap ++ gap') piece hrest

theorem InOrder.append {pieces more : List (List Char)} {text rest : List Char}
    (h : InOrder pieces text) (h' : InOrder more rest) : InOrder (pieces ++ more) (text ++ rest) := by
  induction h with
  | nil text => exact h'.skip text
  | cons gap piece _ ih =>
      rw [List.append_assoc]
      exact .cons gap piece ih

/-- The texts of which pieces are taken one behind the other. -/
def Readings.inOrder : Readings := fun cs b => InOrder (b.filterMap (·.2)) cs

namespace Readings

theorem of_le_inOrder (p : List Char → Prop) : of p ≤ inOrder := by
  rintro cs b ⟨-, rfl⟩
  exact .nil cs

theorem taken_le_inOrder (name : String) (p : List Char → Prop) : taken name p ≤ inOrder := by
  rintro cs b ⟨-, rfl⟩
  have h := InOrder.cons [] cs (.nil [])
  rwa [List.nil_append, List.append_nil] at h

theorem append_le_inOrder {l l' : Readings} (h : l ≤ inOrder) (h' : l' ≤ inOrder) :
    l.append l' ≤ inOrder := by
  rintro cs b ⟨cs₁, b₁, cs₂, b₂, hl, hl', rfl, rfl⟩
  rw [inOrder, List.filterMap_append]
  exact (h _ _ hl).append (h' _ _ hl')

theorem optional_le_inOrder {l : Readings} (h : l ≤ inOrder) {untaken : Takings}
    (hnone : ∀ entry ∈ untaken, entry.2 = none) : l.optional untaken ≤ inOrder := by
  rintro cs b (hl | ⟨-, rfl⟩)
  · exact h _ _ hl
  · rw [inOrder, List.filterMap_eq_nil_iff.mpr hnone]
    exact .nil cs

end Readings

theorem Part.readings_le_inOrder (part : Part) (lead : Bool) : part.readings lead ≤ Readings.inOrder := by
  open Readings in
  cases part with
  | literal text => exact append_le_inOrder (of_le_inOrder _) (of_le_inOrder _)
  | parameter name extent optional suffix =>
      have hgroup : (of (IsLead lead)).append (taken name extent.Admits) ≤ inOrder :=
        append_le_inOrder (of_le_inOrder _) (taken_le_inOrder _ _)
      refine append_le_inOrder ?_ (of_le_inOrder _)
      cases optional with
      | false => exact hgroup
      | true => exact optional_le_inOrder hgroup (by simp)

/-- **The pieces that are taken in a reading** occur in it in the order of the parameters. -/
theorem Outline.readings_le_inOrder (o : Outline Part) (glued : Bool) :
    o.readings glued ≤ Readings.inOrder := by
  open Readings in
  induction o generalizing glued with
  | done gap => exact of_le_inOrder _
  | word gap part rest ih => exact append_le_inOrder (part.readings_le_inOrder _) (ih false)
  | segment gap body rest ihbody ihrest =>
      refine append_le_inOrder (optional_le_inOrder ?_ fun _ => eq_none_of_mem_untaken) (ihrest false)
      exact append_le_inOrder (of_le_inOrder _) (ihbody _)

/-! ### Names of parameters -/

theorem map_name_of_parameter? {options : TemplateOptions} {item : Item} {first : Option Parameter}
    (h : (Template.parameter? options item).outcome = .ok first) :
    first.map (·.name) = item.name? := by
  obtain ⟨kind, optional⟩ := item
  cases kind with
  | literal text =>
      obtain rfl := Except.ok.inj h
      rfl
  | suffix text =>
      obtain rfl := Except.ok.inj h
      rfl
  | parameter name multi =>
      simp only [Template.parameter?, Attempt.outcome_bind, Attempt.outcome_pure] at h
      obtain ⟨collector, -, h⟩ := Except.bind_eq_ok_iff.mp h
      obtain rfl := Except.ok.inj h
      rfl

/-- Parameters have the names of the items, in their order. -/
theorem names_parametersOf {options : TemplateOptions} {items : List Item}
    {parameters : List Parameter}
    (h : (Template.parametersOf options items).outcome = .ok parameters) :
    parameters.map (·.name) = items.filterMap Item.name? := by
  induction items generalizing parameters with
  | nil =>
      obtain rfl := Except.ok.inj h
      rfl
  | cons item items ih =>
      simp only [Template.parametersOf, Attempt.outcome_bind, Except.bind_eq_ok_iff,
        Attempt.outcome_pure] at h
      obtain ⟨first, hfirst, rest, hrest, h⟩ := h
      obtain rfl := Except.ok.inj h
      have hname := map_name_of_parameter? hfirst
      rw [List.filterMap_cons, ← ih hrest, ← hname]
      cases first <;> rfl

/-- Items that are accepted have no name twice. -/
theorem nodup_names_of_check {items checked : List Item} (h : Item.check items = .ok checked) :
    (checked.filterMap Item.name?).Nodup := by
  obtain ⟨rfl, -, hnodup⟩ := Item.check_eq_ok_iff.mp h
  exact hnodup

namespace Template

/-- The parameters of a compiled template are the named ones of its items, and no two have one name. -/
theorem names_of_compile {identity separator : String} {template : Value} {options : TemplateOptions}
    {channel : Channel} {t : Template}
    (hcompile : (compile identity template options separator channel).outcome = .ok t) :
    t.parameters.map (·.name) = t.items.filterMap Item.name? ∧
      (t.items.filterMap Item.name?).Nodup := by
  obtain ⟨text, items, parameters, pattern, path, -, hitems, hparameters, -, -, rfl⟩ :=
    compile_eq_ok_iff.mp hcompile
  obtain ⟨all, -, hcheck⟩ := Except.bind_eq_ok_iff.mp hitems
  exact ⟨names_parametersOf hparameters, nodup_names_of_check hcheck⟩

end Template

/-! ### Recognized messages -/

/-- **A recognized message is a reading**, and the groups have captured what is taken of it. -/
theorem MadeOfOutline.exists_reading {t : Template} {options : TemplateOptions} {o : Outline Part}
    (h : MadeOfOutline t options o) {message : Message} {arguments : Arguments}
    (hrecognized : (t.recognize message).outcome = .ok (.recognized arguments)) :
    ∃ found b, t.pattern.search message.text = some found ∧ found.text = message.text.toList ∧
      o.readings false message.text.toList b ∧
      t.matchedTexts found = b.map (fun entry => entry.2.map String.ofList) ∧
      (t.bindAll t.parameters (t.matchedTexts found)).outcome = .ok arguments := by
  obtain ⟨-, found, hfound, hbind⟩ := Template.recognize_eq_recognized_iff.mp hrecognized
  obtain ⟨st, hhead, hafter, hcaptures⟩ := exists_search_iff_whole.mp ⟨found, hfound, rfl⟩
  have hst := List.mem_of_head? hhead
  rw [h.expr_eq, Expr.ways_seqAll] at hst
  obtain ⟨read, b, hread, hmessage, -, -, hrecorded⟩ := (o.mem_patternExprs_iff).mp hst
  rw [hafter, List.append_nil] at hmessage
  obtain rfl : read = message.text.toList := hmessage.symm
  have hgroups : t.pattern.groups = b.length :=
    h.groups_eq.trans ((o.spans false 0).length_eq hread).symm
  exact ⟨found, b, hfound.1, hfound.2, hread,
    matchedTexts_of_recorded (hcaptures.symm.trans hrecorded) hgroups, hbind⟩

namespace Template

section

variable {identity separator : String} {template : Value} {options : TemplateOptions}
  {channel : Channel} {t : Template} {message : Message} {arguments : Arguments}

/-- What the parameters of a template have taken of a message that it recognizes. -/
structure Takes (t : Template) (requirements : Bindings) (message : Message) (found : Match)
    (b : Takings) : Prop where
  search_eq : t.pattern.search message.text = some found
  text_eq : found.text = message.text.toList
  matchedTexts_eq : t.matchedTexts found = b.map fun entry => entry.2.map String.ofList
  inOrder : InOrder (b.filterMap (·.2)) message.text.toList
  fits : List.Forall₂ (Parameter.Fits t.defaults requirements) t.parameters b

/-- **What recognizing comes to**: each parameter takes what fits it, in the order of the template, and
the arguments follow from that. -/
theorem exists_takes_of_recognized
    (hcompile : (compile identity template options separator channel).outcome = .ok t)
    (htextual : ∀ entry ∈ options.requirements, entry.2.IsTextual)
    (hrecognized : (t.recognize message).outcome = .ok (.recognized arguments)) :
    ∃ found b, t.Takes options.requirements message found b ∧
      arguments = boundArguments t.defaults t.parameters b := by
  obtain ⟨text, rfl, o, ho⟩ := exists_describes_of_compile hcompile
  have hmade := ho.madeOfOutline (textual_of_isTextual htextual _) hcompile
  have hmeets : ∀ part ∈ (o.map (Part.ofWord options.defaults options.requirements)).words,
      part.Meets options.requirements := by
    intro part hpart
    rw [Outline.words_map] at hpart
    obtain ⟨w, -, rfl⟩ := List.mem_map.mp hpart
    exact Part.meets_ofWord _ _ w
  obtain ⟨found, b, hsearch, hwhole, hreading, htexts, hbind⟩ := hmade.exists_reading hrecognized
  have hfits : List.Forall₂ (Parameter.Fits t.defaults options.requirements) t.parameters b := by
    rw [hmade.parameters_eq, hmade.defaults_eq]
    exact Outline.fits_of_readings hmeets hreading false
  rw [htexts, outcome_bindAll_of_fits hfits] at hbind
  exact ⟨found, b, ⟨hsearch, hwhole, htexts, Outline.readings_le_inOrder _ _ _ _ hreading, hfits⟩,
    (Except.ok.inj hbind).symm⟩

/-- **Required parameters are present.** Take a template whose requirements are no patterns, and a
message that it recognizes. The arguments have names of parameters, in the order of the template and
none of them twice. Each parameter that is not optional has an argument, and each one for several
words has an argument of several words. -/
theorem required_parameters_present
    (hcompile : (compile identity template options separator channel).outcome = .ok t)
    (htextual : ∀ entry ∈ options.requirements, entry.2.IsTextual)
    (hrecognized : (t.recognize message).outcome = .ok (.recognized arguments)) :
    t.parameters.map (·.name) = t.items.filterMap Item.name? ∧
    (arguments.map (·.1)).Sublist (t.parameters.map (·.name)) ∧
    (arguments.map (·.1)).Nodup ∧
    (∀ p ∈ t.parameters, p.optional = false → p.name ∈ arguments.map (·.1)) ∧
    (∀ p ∈ t.parameters, p.multi = true → ∃ words, (p.name, .words words) ∈ arguments) := by
  obtain ⟨hnames, hnodup⟩ := names_of_compile hcompile
  obtain ⟨found, b, htakes, rfl⟩ := exists_takes_of_recognized hcompile htextual hrecognized
  have hsublist := names_boundArguments_sublist t.defaults t.parameters b
  -- each parameter has an entry, since there are as many entries as parameters
  have hentry : ∀ p ∈ t.parameters, ∃ entry, (p, entry) ∈ t.parameters.zip b := by
    intro p hp
    rw [← List.map_fst_zip htakes.fits.length_eq.le] at hp
    obtain ⟨⟨q, entry⟩, hmem, rfl⟩ := List.mem_map.mp hp
    exact ⟨entry, hmem⟩
  have hmulti : ∀ p ∈ t.parameters, p.multi = true →
      ∃ words, (p.name, .words words) ∈ boundArguments t.defaults t.parameters b := by
    intro p hp hmulti
    obtain ⟨entry, hmem⟩ := hentry p hp
    exact ⟨_, mem_boundArguments hmem (if_pos hmulti)⟩
  refine ⟨hnames, hsublist, hsublist.nodup (hnames ▸ hnodup), fun p hp hoptional => ?_, hmulti⟩
  cases hkind : p.multi with
  | true =>
      obtain ⟨words, hmem⟩ := hmulti p hp hkind
      exact List.mem_map_of_mem hmem
  | false =>
      obtain ⟨⟨name, taken⟩, hmem⟩ := hentry p hp
      obtain ⟨value, rfl⟩ := (List.forall₂_zip htakes.fits hmem).exists_taken hoptional
      exact List.mem_map_of_mem (mem_boundArguments hmem (p.argument?_some t.defaults value))

/-- A template with a parameter that is required and two that are not. -/
def meetText : String := "meet :who [about *topic] [at :time]"

/-- Its options: the time must be noon, or is left open. -/
def meetOptions : TemplateOptions where
  defaults := [("time", .text "some time")]
  requirements := [("time", .text "noon")]

theorem isTextual_meet : ∀ entry ∈ meetOptions.requirements, entry.2.IsTextual := by
  simp [meetOptions, Value.IsTextual]

/-- A message without topic, which has an argument all the same. -/
theorem required_parameters_present_meet :
    ∃ t arguments, (compile "hall" (.text meetText) meetOptions).outcome = .ok t ∧
      (t.recognize { text := "meet bob at noon" }).outcome = .ok (.recognized arguments) ∧
      arguments = [("who", .value (.text "bob")), ("topic", .words .empty),
        ("time", .value (.text "noon"))] ∧
      t.parameters.map (·.name) = t.items.filterMap Item.name? ∧
      (arguments.map (·.1)).Sublist (t.parameters.map (·.name)) ∧
      (arguments.map (·.1)).Nodup ∧
      (∀ p ∈ t.parameters, p.optional = false → p.name ∈ arguments.map (·.1)) ∧
      (∀ p ∈ t.parameters, p.multi = true → ∃ words, (p.name, .words words) ∈ arguments) := by
  obtain ⟨t, arguments, hcompile, hrecognized, harguments⟩ : ∃ t arguments,
      (compile "hall" (.text meetText) meetOptions).outcome = .ok t ∧
      (t.recognize { text := "meet bob at noon" }).outcome = .ok (.recognized arguments) ∧
      arguments = [("who", .value (.text "bob")), ("topic", .words .empty),
        ("time", .value (.text "noon"))] := ⟨_, _, rfl, rfl, rfl⟩
  exact ⟨t, arguments, hcompile, hrecognized, harguments,
    required_parameters_present hcompile isTextual_meet hrecognized⟩

/-- **Arguments from the message are validated.** Take a template whose requirements are no patterns,
and a message that it recognizes. There is one text, or none, for each parameter, and the texts occur
in the message in the order of the parameters, without overlap. A parameter with a text is bound to it,
or to it and its words. The text is the one required; where nothing is required, it is one word, or
for a parameter for several words it stands on one line. -/
theorem bound_texts_validated
    (hcompile : (compile identity template options separator channel).outcome = .ok t)
    (htextual : ∀ entry ∈ options.requirements, entry.2.IsTextual)
    (hrecognized : (t.recognize message).outcome = .ok (.recognized arguments)) :
    ∃ found, t.pattern.search message.text = some found ∧ found.text = message.text.toList ∧
      (t.matchedTexts found).length = t.parameters.length ∧
      InOrder ((t.matchedTexts found).filterMap (·.map String.toList)) message.text.toList ∧
      ∀ p text, (p, some text) ∈ t.parameters.zip (t.matchedTexts found) →
        (p.name, if p.multi then .words { words := wordsOf text, text } else .value (.text text)) ∈
          arguments ∧
        (options.requirements.getD p.name = .null →
          if p.multi then '\n' ∉ text.toList else IsWord text.toList) ∧
        ∀ s, options.requirements.getD p.name = .text s → text = s := by
  obtain ⟨found, b, htakes, rfl⟩ := exists_takes_of_recognized hcompile htextual hrecognized
  refine ⟨found, htakes.search_eq, htakes.text_eq, ?_, ?_, fun p text hmem => ?_⟩
  · rw [htakes.matchedTexts_eq, List.length_map, htakes.fits.length_eq]
  · have horder := htakes.inOrder
    rw [htakes.matchedTexts_eq, List.filterMap_map]
    simpa [Function.comp_def] using horder
  · rw [htakes.matchedTexts_eq] at hmem
    obtain ⟨name, value, hzip, rfl⟩ := exists_taken_of_mem_zip hmem
    have hadmits := (List.forall₂_zip htakes.fits hzip).admits value rfl
    refine ⟨mem_boundArguments hzip (p.argument?_some t.defaults value), fun hnull => ?_,
      fun s hs => ?_⟩
    · rw [hnull] at hadmits
      rw [String.toList_ofList]
      cases hmulti : p.multi <;> rwa [hmulti] at hadmits
    · rw [hs] at hadmits
      obtain rfl : value = s.toList := hadmits
      exact String.ofList_toList

/-- A message with a topic, which takes the rest of the line. -/
theorem bound_texts_validated_meet :
    ∃ t arguments, (compile "hall" (.text meetText) meetOptions).outcome = .ok t ∧
      (t.recognize { text := "meet bob about tea  at noon" }).outcome =
        .ok (.recognized arguments) ∧
      arguments = [("who", .value (.text "bob")),
        ("topic", .words { words := ["tea", "at", "noon"], text := "tea  at noon" }),
        ("time", .value (.text "some time"))] ∧
      ∃ found, t.pattern.search "meet bob about tea  at noon" = some found ∧
        found.text = "meet bob about tea  at noon".toList ∧
        (t.matchedTexts found).length = t.parameters.length ∧
        InOrder ((t.matchedTexts found).filterMap (·.map String.toList))
          "meet bob about tea  at noon".toList ∧
        ∀ p text, (p, some text) ∈ t.parameters.zip (t.matchedTexts found) →
          (p.name, if p.multi then .words { words := wordsOf text, text } else .value (.text text)) ∈
            arguments ∧
          (meetOptions.requirements.getD p.name = .null →
            if p.multi then '\n' ∉ text.toList else IsWord text.toList) ∧
          ∀ s, meetOptions.requirements.getD p.name = .text s → text = s := by
  obtain ⟨t, arguments, hcompile, hrecognized, harguments⟩ : ∃ t arguments,
      (compile "hall" (.text meetText) meetOptions).outcome = .ok t ∧
      (t.recognize { text := "meet bob about tea  at noon" }).outcome =
        .ok (.recognized arguments) ∧
      arguments = [("who", .value (.text "bob")),
        ("topic", .words { words := ["tea", "at", "noon"], text := "tea  at noon" }),
        ("time", .value (.text "some time"))] := ⟨_, _, rfl, rfl, rfl⟩
  exact ⟨t, arguments, hcompile, hrecognized, harguments,
    bound_texts_validated hcompile isTextual_meet hrecognized⟩

end

end Template

end Switchboard
