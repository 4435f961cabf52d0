import Switchboard.Proofs.Template.Matching
import Switchboard.Proofs.Template.Wordwise

/-!
# Recognizing a Message Word by Word

A compiled template in which each parameter stands for one word recognizes a message exactly when
the words of the message can be aligned with its parts. The parameters are then bound by the
preferred alignment: from left to right, one with a default takes the next word whenever the rest
can still be aligned.

Three things are put together here. The pattern of such a template is the pattern of its parts
(`madeOfParts_of_compile`). Its first way from the start of a message is the preferred alignment
(`whole_patternExprs_iff`). And the n-th group is the n-th parameter, so that what was captured is
what the alignment takes (`bindAll_of_aligned`).

## Main results

* `Template.recognize_iff_aligned`: which messages are recognized, and with which arguments.
-/

namespace Switchboard

open Pattern

/-! ### From the start of the message -/

/-- The ways through a pattern at the start of a message are those through its first word, and
then through the other parts. -/
theorem waysAll_patternExprs (first : List Char) (parts : List Part) (message : List Char) :
    waysAll (patternExprs (.literal first :: parts)) (.start message) =
      (bodyWays 0 (.literal first) (.start message)).flatMap (tailWays 0 parts) := by
  have hexprs : patternExprs (.literal first :: parts) =
      .anchor .lineStart :: ((first.map fun c => .set (.only c)) ++
        ((partsPieces true 0 parts).map (·.expr) ++ [.anchor .lineEnd])) := by
    simp [patternExprs, partsPieces, Part.pieces, leadPieces, literalPieces, Part.groups]
  have hanchor : (Expr.anchor .lineStart).ways (.start message) = [.start message] := rfl
  rw [hexprs, waysAll, hanchor, List.flatMap_singleton, waysAll_append]
  rfl

/-- **The first way through a whole pattern** is the preferred alignment of all words of a
trimmed message. -/
theorem whole_patternExprs_iff {first : List Char} (hfirst : IsWord first) {parts : List Part}
    (hparts : ∀ part ∈ parts, part.Plain) {message : List Char}
    {result : List (Nat × List Char)} :
    Whole (waysAll (patternExprs (.literal first :: parts)) (.start message)) result ↔
      trim message = message ∧ ∃ b, Preferred (.literal first :: parts) (words message) b ∧
        result = recorded 0 b [] := by
  have hstops := stops_tailWays hparts 0
  have hplain : (Part.literal first).Plain := hfirst
  rw [waysAll_patternExprs, trim_eq_self_iff, and_assoc]
  by_cases hstart : Starts nonblank message
  · obtain ⟨w, rest, rfl, hw, hrest⟩ := exists_word_append hstart
    rw [and_iff_right (hw.not_starts_blank rest), endsTight_word_append hw,
      words_word_append hw hrest]
    by_cases hw' : w = first
    · subst hw'
      have hbody := bodyWays_of_takes hstops hw hrest (.literal w) 0 [] []
      rw [State.start, hbody, followsPreferred hparts 0 hrest]
      simp [preferred_literal_iff, recorded]
    · have htakes : ¬ ∃ b, (Part.literal first).Takes w b := by
        rintro ⟨b, hb⟩
        cases hb
        exact hw' rfl
      have hbody := bodyWays_of_not_takes hstops hw hrest hplain htakes 0 [] []
      rw [State.start, hbody]
      simp [preferred_literal_iff, hw', not_whole_nil]
  · have hbody : bodyWays 0 (.literal first) (.start message) = [] :=
      bodyWays_of_not_starts hplain 0 hstart
    rw [hbody, List.flatMap_nil, iff_false_left (not_whole_nil result)]
    rintro ⟨hblank, -, b, hb, -⟩
    cases message with
    | nil => cases hb
    | cons c message =>
        by_cases hc : isBlank c = true
        · exact hblank (starts_cons.mpr hc)
        · exact hstart (starts_cons.mpr (by simpa [nonblank] using hc))

/-! ### From captures to arguments -/

/-- A group before those of the takings has captured what it had before. -/
theorem lookup_recorded_of_le (b : Takings) {i g : Nat} (h : i ≤ g)
    (captures : List (Nat × List Char)) :
    (recorded g b captures).lookup i = captures.lookup i := by
  induction b generalizing g captures with
  | nil => rfl
  | cons entry b ih =>
      obtain ⟨name, taken⟩ := entry
      cases taken with
      | none => exact ih (Nat.le_succ_of_le h) captures
      | some value =>
          rw [recorded, ih (Nat.le_succ_of_le h), List.lookup_cons]
          have hne : (i == g + 1) = false := by
            simp only [beq_eq_false_iff_ne]
            omega
          rw [hne]

/-- The groups of the takings have captured what was taken. -/
theorem map_lookup_recorded (b : Takings) {g : Nat} {captures : List (Nat × List Char)}
    (h : ∀ i > g, captures.lookup i = none) :
    (List.range b.length).map (fun i => (recorded g b captures).lookup (g + (i + 1))) =
      b.map (·.2) := by
  induction b generalizing g captures with
  | nil => rfl
  | cons entry b ih =>
      obtain ⟨name, taken⟩ := entry
      have hrest : ∀ captures, (∀ i > g + 1, captures.lookup i = none) →
          (List.range b.length).map
            (fun i => (recorded (g + 1) b captures).lookup (g + (i + 1 + 1))) = b.map (·.2) := by
        intro captures hlookup
        rw [← ih hlookup]
        apply List.map_congr_left
        intro i _
        congr 1
        omega
      rw [List.length_cons, List.range_succ_eq_map, List.map_cons, List.map_map, List.map_cons]
      cases taken with
      | none =>
          congr 1
          · rw [recorded, lookup_recorded_of_le b (Nat.le_refl _)]
            exact h _ (Nat.lt_succ_self g)
          · exact hrest captures fun i hi => h i (by omega)
      | some value =>
          congr 1
          · rw [recorded, lookup_recorded_of_le b (Nat.le_refl _), Nat.zero_add]
            simp
          · refine hrest _ fun i hi => ?_
            have hne : (i == g + 1) = false := by
              simp only [beq_eq_false_iff_ne]
              omega
            rw [List.lookup_cons, hne]
            exact h i (by omega)

/-- There is one taking for each group. -/
theorem Aligned.length_eq {parts : List Part} {ws : List (List Char)} {b : Takings}
    (h : Aligned parts ws b) : b.length = partsGroups parts := by
  induction h with
  | nil => rfl
  | takes hpart _ ih => rw [List.length_append, hpart.length_eq, ih, partsGroups]
  | skips _ ih => rw [List.length_cons, ih, partsGroups, Part.groups, Nat.add_comm]

/-- The texts of the groups are those that were taken. -/
theorem matchedTexts_of_recorded {t : Template} {found : Match} {b : Takings}
    (hcaptures : found.captures = recorded 0 b []) (hgroups : t.pattern.groups = b.length) :
    t.matchedTexts found = b.map fun entry => entry.2.map String.ofList := by
  have hnone : ∀ i > 0, ([] : List (Nat × List Char)).lookup i = none := fun _ _ => rfl
  have hlookup := map_lookup_recorded b hnone
  simp only [Nat.zero_add] at hlookup
  rw [Template.matchedTexts, Match.groups, hgroups]
  simp only [Match.group?, Nat.succ_ne_zero, if_false, hcaptures]
  rw [hlookup, List.map_map]
  rfl

/-- The argument of a parameter for one word, without a collector. -/
theorem outcome_bind_word (t : Template) {p : Parameter} (hmulti : p.multi = false)
    (hcollector : p.collector = none) (taken : Option (List Char)) :
    (t.bind p (taken.map String.ofList)).outcome = .ok (argument? p.default taken) := by
  obtain ⟨name, multi, optional, default, collector⟩ := p
  obtain rfl : multi = false := hmulti
  obtain rfl : collector = none := hcollector
  cases taken with
  | some value => rfl
  | none =>
      rw [Option.map_none]
      unfold Template.bind
      cases t.defaults.has name <;> rfl

/-- The arguments of parameters are that of the first, if it has one, and those of the others. -/
theorem outcome_bindAll_cons {t : Template} {p : Parameter} {ps : List Parameter}
    {matched : Option String} {more : List (Option String)} {argument : Option Argument}
    {rest : Arguments} (hfirst : (t.bind p matched).outcome = .ok argument)
    (hrest : (t.bindAll ps more).outcome = .ok rest) :
    (t.bindAll (p :: ps) (matched :: more)).outcome =
      .ok ((argument.map fun a => (p.name, a)).toList ++ rest) := by
  simp only [Template.bindAll, Attempt.outcome_bind, hfirst, hrest]
  rfl

/-- **The arguments are those of the alignment.** -/
theorem bindAll_of_aligned {t : Template} {parts : List Part} {ws : List (List Char)} {b : Takings}
    (h : Aligned parts ws b) :
    (t.bindAll (parts.filterMap (Part.parameter? t.defaults))
      (b.map fun entry => entry.2.map String.ofList)).outcome =
        .ok (argumentsOf t.defaults b) := by
  induction h with
  | nil => rfl
  | takes hpart _ ih =>
      cases hpart with
      | literal => exact ih
      | word hvalue =>
          rw [List.singleton_append, argumentsOf_cons]
          exact outcome_bindAll_cons (outcome_bind_word t rfl rfl (some _)) ih
  | skips _ ih =>
      rw [argumentsOf_cons]
      exact outcome_bindAll_cons (outcome_bind_word t rfl rfl none) ih

/-! ### Recognizing -/

/-- A template without brackets in which each parameter stands for one word and has no
requirement; one with a default has no suffix. -/
structure WordTemplate (options : TemplateOptions) (text : String) : Prop where
  bracketFree : BracketFree text.toList
  slots : ∀ w ∈ words text.toList, ∀ slot, Slot.ofWord? w = some slot →
    slot.multi = false ∧ options.requirements.getD (String.ofList slot.name) = .null ∧
      (options.defaults.has (String.ofList slot.name) = true → slot.suffix = [])

theorem WordTemplate.wordwise {options : TemplateOptions} {text : String}
    (h : WordTemplate options text) : Wordwise options text where
  bracketFree := h.bracketFree
  textual := fun w hw slot hslot => .inl (h.slots w hw slot hslot).2.1

/-- The suffix of a parameter is a part of its word. -/
theorem suffix_subset_of_ofWord? {w : List Char} {slot : Slot} (h : Slot.ofWord? w = some slot) :
    slot.suffix ⊆ w := by
  obtain ⟨rfl, -⟩ := Slot.ofWord?_eq_some_iff.mp h
  exact fun d hd => List.mem_cons_of_mem _ (List.mem_append_right slot.name hd)

/-- The parts of such a template are plain. -/
theorem WordTemplate.plain {options : TemplateOptions} {text : String}
    (h : WordTemplate options text) : ∀ part ∈ partsOf options text, part.Plain := by
  intro part hpart
  obtain ⟨w, hw, rfl⟩ := List.mem_map.mp hpart
  have hword := isWord_of_mem_words hw
  rw [Part.ofWord]
  cases hslot : Slot.ofWord? w with
  | none => exact hword
  | some slot =>
      obtain ⟨hmulti, hnull, hsuffix⟩ := h.slots w hw slot hslot
      refine ⟨?_, hsuffix, fun c hc => hword.nonblank c (suffix_subset_of_ofWord? hslot hc)⟩
      rw [hmulti, hnull]
      rfl

/-- A search that finds the whole text has the captures of the first way. -/
theorem exists_search_iff_whole {e : Expr} {text : List Char} {captures : List (Nat × List Char)} :
    (∃ found, (e.search text = some found ∧ found.text = text) ∧ found.captures = captures) ↔
      Whole (e.ways (.start text)) captures := by
  simp only [Expr.search_whole_iff]
  constructor
  · rintro ⟨found, ⟨st, hst, hafter, rfl⟩, rfl⟩
    exact ⟨st, hst, hafter, rfl⟩
  · rintro ⟨st, hst, hafter, rfl⟩
    exact ⟨_, ⟨st, hst, hafter, rfl⟩, rfl⟩

namespace Template

/-- A message is recognized when the template is for messages of its sort, the first match is the
whole message, and the parameters can be bound. -/
theorem recognize_eq_recognized_iff {t : Template} {message : Message} {arguments : Arguments} :
    (t.recognize message).outcome = .ok (.recognized arguments) ↔
      t.refusal? message.isPrivate = none ∧
        ∃ found, (t.pattern.search message.text = some found ∧
          found.text = message.text.toList) ∧
          (t.bindAll t.parameters (t.matchedTexts found)).outcome = .ok arguments := by
  simp only [recognize, Attempt.outcome_bind, Attempt.outcome_lift]
  cases t.refusal? message.isPrivate with
  | some failure =>
      constructor
      · intro h
        cases h
      · rintro ⟨h, -⟩
        cases h
  | none =>
      cases hsearch : t.pattern.search message.text with
      | none =>
          constructor
          · intro h
            cases h
          · rintro ⟨-, found, ⟨h, -⟩, -⟩
            cases h
      | some found =>
          have hfound : (∃ found', (some found = some found' ∧
              found'.text = message.text.toList) ∧
              (t.bindAll t.parameters (t.matchedTexts found')).outcome = .ok arguments) ↔
              found.text = message.text.toList ∧
                (t.bindAll t.parameters (t.matchedTexts found)).outcome = .ok arguments := by
            simp [and_assoc]
          have htext : (String.ofList found.text == message.text) = true ↔
              found.text = message.text.toList := by
            rw [beq_iff_eq, ← String.toList_inj, String.toList_ofList]
          rw [and_iff_right rfl, hfound, ← htext]
          by_cases heq : (String.ofList found.text == message.text) = true
          · simp only [heq, if_true, true_and, Attempt.outcome_bind, Attempt.outcome_lift,
              Attempt.outcome_pure, Except.bind_eq_ok_iff, Except.ok.injEq,
              Recognition.recognized.injEq]
            simp
          · simp only [heq, if_false, false_and, iff_false, Bool.false_eq_true]
            intro h
            cases h

/-- A message is recognized with the arguments of the preferred alignment. -/
theorem recognized_iff_preferred {identity separator text : String} {options : TemplateOptions}
    {channel : Channel} {t : Template}
    (hcompile : (compile identity (.text text) options separator channel).outcome = .ok t)
    (hwords : WordTemplate options text) (hpublic : options.inPublic ≠ some false)
    (hprivate : options.inPrivate ≠ some false) {message : Message} {arguments : Arguments} :
    (t.recognize message).outcome = .ok (.recognized arguments) ↔
      trim message.text.toList = message.text.toList ∧
        ∃ b, Preferred (partsOf options text) (words message.text.toList) b ∧
          arguments = argumentsOf options.defaults b := by
  have hmade := madeOfParts_of_compile hwords.wordwise hcompile
  obtain ⟨first, rest, hfirst, hparts⟩ := hmade.starts
  have hplain : ∀ part ∈ rest, part.Plain := by
    intro part hpart
    exact hwords.plain part (hparts ▸ List.mem_cons_of_mem _ hpart)
  have hrefusal : t.refusal? message.isPrivate = none := by
    rw [← hmade.inPublic_eq] at hpublic
    rw [← hmade.inPrivate_eq] at hprivate
    simp [refusal?, hpublic, hprivate]
  -- what is bound depends on the captures alone, and these are those of the alignment
  have hbind : ∀ {found : Match} {b : Takings},
      Preferred (partsOf options text) (words message.text.toList) b →
      found.captures = recorded 0 b [] →
      (t.bindAll t.parameters (t.matchedTexts found)).outcome =
        .ok (argumentsOf options.defaults b) := by
    intro found b hb hcaptures
    have hlength : t.pattern.groups = b.length := hmade.groups_eq.trans hb.aligned.length_eq.symm
    rw [matchedTexts_of_recorded hcaptures hlength, hmade.parameters_eq, ← hmade.defaults_eq]
    exact bindAll_of_aligned hb.aligned
  have hwhole : ∀ captures, Whole (t.pattern.expr.ways (.start message.text.toList)) captures ↔
      trim message.text.toList = message.text.toList ∧
        ∃ b, Preferred (partsOf options text) (words message.text.toList) b ∧
          captures = recorded 0 b [] := by
    intro captures
    rw [hmade.expr_eq, Expr.ways_seqAll, hparts]
    exact whole_patternExprs_iff hfirst hplain
  rw [recognize_eq_recognized_iff, and_iff_right hrefusal]
  constructor
  · rintro ⟨found, hfound, harguments⟩
    obtain ⟨htrim, b, hb, hcaptures⟩ :=
      (hwhole _).mp (exists_search_iff_whole.mp ⟨found, hfound, rfl⟩)
    rw [hbind hb hcaptures] at harguments
    exact ⟨htrim, b, hb, (Except.ok.inj harguments).symm⟩
  · rintro ⟨htrim, b, hb, rfl⟩
    obtain ⟨found, hfound, hcaptures⟩ :=
      exists_search_iff_whole.mpr ((hwhole _).mpr ⟨htrim, b, hb, rfl⟩)
    exact ⟨found, hfound, hbind hb hcaptures⟩

/-- **Recognizing word by word.** Take a template of words alone that is not kept from messages
of either sort. A message is recognized exactly when no blanks stand at its ends and its words
can be aligned with the parts of the template. The arguments are then those of the one preferred
alignment. -/
theorem recognize_iff_aligned {identity separator text : String} {options : TemplateOptions}
    {channel : Channel} {t : Template}
    (hcompile : (compile identity (.text text) options separator channel).outcome = .ok t)
    (hwords : WordTemplate options text) (hpublic : options.inPublic ≠ some false)
    (hprivate : options.inPrivate ≠ some false) (message : Message) :
    ((∃ arguments, (t.recognize message).outcome = .ok (.recognized arguments)) ↔
      trim message.text.toList = message.text.toList ∧
        ∃ b, Aligned (partsOf options text) (words message.text.toList) b) ∧
    ∀ arguments, (t.recognize message).outcome = .ok (.recognized arguments) →
      ∃ b, (∀ b', Preferred (partsOf options text) (words message.text.toList) b' ↔ b' = b) ∧
        arguments = argumentsOf options.defaults b := by
  have hkey : ∀ arguments, (t.recognize message).outcome = .ok (.recognized arguments) ↔
      trim message.text.toList = message.text.toList ∧
        ∃ b, Preferred (partsOf options text) (words message.text.toList) b ∧
          arguments = argumentsOf options.defaults b :=
    fun arguments => recognized_iff_preferred hcompile hwords hpublic hprivate
  constructor
  · constructor
    · rintro ⟨arguments, h⟩
      obtain ⟨htrim, b, hb, -⟩ := (hkey arguments).mp h
      exact ⟨htrim, b, hb.aligned⟩
    · rintro ⟨htrim, haligned⟩
      obtain ⟨b, hb⟩ := exists_preferred_iff.mpr haligned
      exact ⟨_, (hkey _).mpr ⟨htrim, b, hb, rfl⟩⟩
  · intro arguments h
    obtain ⟨-, b, hb, harguments⟩ := (hkey arguments).mp h
    refine ⟨b, fun b' => ⟨fun hb' => hb'.unique hb, ?_⟩, harguments⟩
    rintro rfl
    exact hb

/-- A template with a suffix and two parameters that may be left out. -/
def seenText : String := "seen :nick in :where? :when"

/-- Its options: nobody asked for is the one who asks, and the time does not matter. -/
def seenOptions : TemplateOptions :=
  { defaults := [("nick", .text "me"), ("when", .bool false)] }

/-- A message of two lines, in which the first parameter has to leave its word to a literal. -/
def seenMessage : Message := { text := "seen in\nlobby?" }

theorem wordTemplate_seen : WordTemplate seenOptions seenText := by
  refine ⟨by decide, fun w hw slot hslot => ?_⟩
  have hlist : words seenText.toList = ["seen".toList, ":nick".toList, "in".toList,
      ":where?".toList, ":when".toList] := by decide +kernel
  have hseen : Slot.ofWord? "seen".toList = none := by decide
  have hnick : Slot.ofWord? ":nick".toList = some ⟨false, "nick".toList, []⟩ := by decide
  have hin : Slot.ofWord? "in".toList = none := by decide
  have hwhere : Slot.ofWord? ":where?".toList = some ⟨false, "where".toList, ['?']⟩ := by decide
  have hwhen : Slot.ofWord? ":when".toList = some ⟨false, "when".toList, []⟩ := by decide
  rw [hlist] at hw
  simp only [List.mem_cons, List.not_mem_nil, or_false] at hw
  rcases hw with rfl | rfl | rfl | rfl | rfl
  · cases hseen.symm.trans hslot
  · obtain rfl := Option.some.inj (hnick.symm.trans hslot)
    exact ⟨rfl, rfl, fun _ => rfl⟩
  · cases hin.symm.trans hslot
  · obtain rfl := Option.some.inj (hwhere.symm.trans hslot)
    exact ⟨rfl, rfl, by decide⟩
  · obtain rfl := Option.some.inj (hwhen.symm.trans hslot)
    exact ⟨rfl, rfl, fun _ => rfl⟩

/-- The message is recognized, with the arguments of the preferred alignment. -/
theorem recognize_iff_aligned_seen :
    ∃ t, (compile "hall" (.text seenText) seenOptions).outcome = .ok t ∧
      WordTemplate seenOptions seenText ∧ seenOptions.inPublic ≠ some false ∧
      seenOptions.inPrivate ≠ some false ∧
      ∃ arguments, (t.recognize seenMessage).outcome = .ok (.recognized arguments) ∧
        ∃ b, (∀ b', Preferred (partsOf seenOptions seenText) (words seenMessage.text.toList) b' ↔
          b' = b) ∧ arguments = argumentsOf seenOptions.defaults b := by
  have hcompiles : (compile "hall" (.text seenText) seenOptions).outcome.toOption.isSome = true := by
    decide
  cases hcompile : (compile "hall" (.text seenText) seenOptions).outcome with
  | error e =>
      rw [hcompile] at hcompiles
      cases hcompiles
  | ok t =>
      have haligned : ∃ b, Aligned (partsOf seenOptions seenText)
          (words seenMessage.text.toList) b := by
        have hparts : partsOf seenOptions seenText =
            [.literal "seen".toList, .parameter "nick" .word true [], .literal "in".toList,
              .parameter "where" .word false ['?'], .parameter "when" .word true []] := by decide
        have hmessage : words seenMessage.text.toList =
            ["seen".toList, "in".toList, "lobby".toList ++ ['?']] := by decide
        rw [hparts, hmessage]
        exact ⟨_, .takes (.literal _) (.skips (.takes (.literal _)
          (.takes (.word (by decide)) (.skips .nil))))⟩
      obtain ⟨hiff, harguments⟩ :=
        recognize_iff_aligned hcompile wordTemplate_seen (by decide) (by decide) seenMessage
      obtain ⟨arguments, h⟩ := hiff.mpr ⟨by decide, haligned⟩
      exact ⟨t, rfl, wordTemplate_seen, by decide, by decide, arguments, h, harguments arguments h⟩

end Template

end Switchboard
