import Switchboard.Proofs.Template.Binding
import Switchboard.Proofs.Template.WholeMessage

/-!
# Messages of One Line

The caret and the dollar of a pattern stand for the ends of lines. In a message without line feed
these are the ends of the message. So a search goes no further than the start, and every way through
the pattern ends at the end of the message: whatever is found is all of it, and which way is tried
first no longer matters. A template recognizes such a message exactly if the message is a reading of
its outline (`MadeOfOutline.recognized_iff_reading`).

Readings only become more when more parameters have defaults. The group of a parameter becomes
optional, and nothing else changes.

## Main results

* `Expr.search_single_line`: what is found in a text without line feed.
* `Template.partial_match_spans_lines`: a message that only matches in part has several lines.
* `Template.defaults_keep_messages`: more defaults, more messages.
-/

namespace Switchboard

open Pattern

/-! ### Searching a text without line feed -/

namespace Pattern

variable {exprs : List Expr}

/-- Inside a line there is no start of a line. -/
theorem Expr.matchAt_lineStart {before : List Char} (hne : before ≠ []) (hbefore : '\n' ∉ before)
    (after : List Char) (accept : State → Bool) :
    (Expr.seqAll (.anchor .lineStart :: exprs)).matchAt before after accept = none := by
  obtain ⟨c, before, rfl⟩ := List.exists_cons_of_ne_nil hne
  have hc : c ≠ '\n' := fun heq => hbefore (heq ▸ List.mem_cons_self)
  rw [matchAt_eq, ways_seqAll, waysAll, Expr.ways]
  simp [Anchor.holds, hc]

/-- A search inside the last line finds nothing. -/
theorem Expr.searchFrom_lineStart {before after : List Char} (hne : before ≠ [])
    (hbefore : '\n' ∉ before) (hafter : '\n' ∉ after) :
    (Expr.seqAll (.anchor .lineStart :: exprs)).searchFrom before after = none := by
  induction after generalizing before with
  | nil => exact matchAt_lineStart hne hbefore [] _
  | cons c cs ih =>
      rw [searchFrom, matchAt_lineStart hne hbefore]
      have hc : '\n' ≠ c := List.ne_of_not_mem_cons hafter
      exact ih (List.cons_ne_nil c before) (List.not_mem_cons_of_ne_of_not_mem hc hbefore)
        (List.not_mem_of_not_mem_cons hafter)

/-- Where nothing matches at the start of a line, nothing matches in it. -/
theorem Expr.search_eq_none_of_single_line {text : List Char} (hline : '\n' ∉ text)
    (hways : (Expr.seqAll (.anchor .lineStart :: exprs)).ways (.start text) = []) :
    (Expr.seqAll (.anchor .lineStart :: exprs)).search text = none := by
  have hstart : (Expr.seqAll (.anchor .lineStart :: exprs)).matchAt [] text (fun _ => true) =
      none := by
    rw [State.start] at hways
    rw [matchAt_eq, hways]
    rfl
  cases text with
  | nil => exact hstart
  | cons c cs =>
      have hc : '\n' ≠ c := List.ne_of_not_mem_cons hline
      rw [search, searchFrom, hstart]
      exact searchFrom_lineStart (List.cons_ne_nil c [])
        (List.not_mem_cons_of_ne_of_not_mem hc List.not_mem_nil)
        (List.not_mem_of_not_mem_cons hline)

/-- **What is found in a text without line feed** is all of it. -/
theorem Expr.search_single_line {text : List Char} (hline : '\n' ∉ text) {found : Match}
    (h : (Expr.seqAll (.anchor .lineStart :: (exprs ++ [.anchor .lineEnd]))).search text = some found) :
    found.before = [] ∧ found.text = text := by
  cases hways : (Expr.seqAll (.anchor .lineStart :: (exprs ++ [.anchor .lineEnd]))).ways
      (.start text) with
  | nil =>
      rw [search_eq_none_of_single_line hline hways] at h
      cases h
  | cons first later =>
      have hfirst := Expr.search_of_head?_ways (congrArg List.head? hways)
      have hmem : first ∈ (Expr.seqAll ((.anchor .lineStart :: exprs) ++ [.anchor .lineEnd])).ways
          (.start text) := List.mem_of_head? (congrArg List.head? hways)
      obtain ⟨found', rest, hsearch, htext, hrest⟩ := Expr.exists_search_line hmem
      obtain rfl : found' = found := Option.some.inj (hsearch.symm.trans h)
      have hbefore : found'.before = [] := by
        rw [Option.some.inj (hsearch.symm.trans hfirst)]
      refine ⟨hbefore, ?_⟩
      rcases hrest with rfl | ⟨more, rfl⟩
      · rw [htext, List.append_nil]
      · exact absurd (htext ▸ List.mem_append_right _ List.mem_cons_self) hline

end Pattern

/-! ### Readings of one line -/

/-- **A template recognizes a message of one line** exactly if it does not refuse it and the message
is a reading of its outline. -/
theorem MadeOfOutline.recognized_iff_reading {t : Template} {options : TemplateOptions}
    {o : Outline Part} (h : MadeOfOutline t options o) (hsound : t.Sound) {message : Message}
    (hline : '\n' ∉ message.text.toList) :
    (∃ arguments, (t.recognize message).outcome = .ok (.recognized arguments)) ↔
      t.refusal? message.isPrivate = none ∧ ∃ b, o.readings false message.text.toList b := by
  constructor
  · rintro ⟨arguments, hrecognized⟩
    obtain ⟨-, b, -, -, hread, -⟩ := h.exists_reading hrecognized
    exact ⟨(Template.recognize_eq_recognized_iff.mp hrecognized).1, b, hread⟩
  · rintro ⟨hrefusal, b, hread⟩
    have hexpr : t.pattern.expr.ways (.start message.text.toList) =
        waysAll o.patternExprs (.start message.text.toList) := by
      rw [h.expr_eq, Expr.ways_seqAll]
    have hlast : (⟨message.text.toList.reverse, [], recorded 0 b []⟩ : State) ∈
        waysAll o.patternExprs (.start message.text.toList) :=
      o.mem_patternExprs_iff.mpr ⟨_, b, hread, (List.append_nil _).symm, .inl rfl, rfl, rfl⟩
    obtain ⟨first, later, hways⟩ := List.exists_cons_of_ne_nil (List.ne_nil_of_mem hlast)
    -- the first way may be another one, but it ends at the end of the line too
    obtain ⟨read, -, -, hmessage, hend, -⟩ :=
      o.mem_patternExprs_iff.mp (hways ▸ List.mem_cons_self : first ∈ _)
    have hafter : first.after = [] := by
      refine hend.resolve_right ?_
      rintro ⟨more, hmore⟩
      rw [hmessage, hmore] at hline
      exact hline (List.mem_append_right _ List.mem_cons_self)
    exact (Template.exists_recognized_iff hsound hrefusal).mpr
      ⟨first.captures, first, by rw [hexpr, hways]; rfl, hafter, rfl⟩

/-! ### More defaults -/

/-- What is not taken when a segment is left out does not depend on defaults. -/
theorem Outline.untaken_map_ofWord (o : Outline (List Char)) (defaults more requirements : Bindings) :
    (o.map (Part.ofWord defaults requirements)).untaken =
      (o.map (Part.ofWord more requirements)).untaken := by
  have hword : ∀ w, (Part.ofWord defaults requirements w).untaken =
      (Part.ofWord more requirements w).untaken := by
    intro w
    rw [Part.ofWord, Part.ofWord]
    cases Slot.ofWord? w <;> rfl
  simp only [untaken, words_map, List.flatMap_map, hword]

section

variable {defaults more requirements : Bindings}

/-- With more defaults a word has all its readings, and perhaps more. -/
theorem Part.readings_ofWord_mono (hmore : ∀ name, defaults.has name = true → more.has name = true)
    (w : List Char) (lead : Bool) :
    (Part.ofWord defaults requirements w).readings lead ≤
      (Part.ofWord more requirements w).readings lead := by
  rw [Part.ofWord, Part.ofWord]
  cases Slot.ofWord? w with
  | none => exact le_rfl
  | some slot =>
      refine Readings.append_mono ?_ le_rfl
      cases hdefault : defaults.has (String.ofList slot.name) with
      | true =>
          rw [hmore _ hdefault]
      | false =>
          cases more.has (String.ofList slot.name) with
          | true => exact Readings.le_optional _ _
          | false => exact le_rfl

/-- **With more defaults** an outline has all its readings, and perhaps more. -/
theorem Outline.readings_ofWord_mono
    (hmore : ∀ name, defaults.has name = true → more.has name = true) (o : Outline (List Char))
    (glued : Bool) :
    (o.map (Part.ofWord defaults requirements)).readings glued ≤
      (o.map (Part.ofWord more requirements)).readings glued := by
  induction o generalizing glued with
  | done gap => exact le_rfl
  | word gap w rest ih => exact Readings.append_mono (Part.readings_ofWord_mono hmore w _) (ih false)
  | segment gap body rest ihbody ihrest =>
      rw [map, map, readings, readings, body.untaken_map_ofWord defaults more]
      exact Readings.append_mono
        (Readings.optional_mono (Readings.append_mono le_rfl (ihbody _)) _) (ihrest false)

end

namespace Template

theorem refusal?_ne_partialMatch (t : Template) (isPrivate : Bool) (text : String) :
    t.refusal? isPrivate ≠ some (.partialMatch text) := by
  rw [refusal?]
  split
  · simp
  · split <;> simp

/-- A partial match has been found, and it is not the whole message. -/
theorem exists_search_of_partialMatch {t : Template} {message : Message} {text : String}
    (h : (t.recognize message).outcome = .ok (.rejected (.partialMatch text))) :
    ∃ found, t.pattern.search message.text = some found ∧ found.text ≠ message.text.toList := by
  simp only [recognize, Attempt.outcome_bind, Attempt.outcome_lift] at h
  cases hrefusal : t.refusal? message.isPrivate with
  | some failure =>
      rw [hrefusal] at h
      cases h
      exact absurd hrefusal (t.refusal?_ne_partialMatch _ _)
  | none =>
      rw [hrefusal] at h
      cases hsearch : t.pattern.search message.text with
      | none =>
          rw [hsearch] at h
          cases h
      | some found =>
          refine ⟨found, rfl, fun hwhole => ?_⟩
          have hequal : (String.ofList found.text == message.text) = true := by
            rw [hwhole, String.ofList_toList, beq_self_eq_true]
          rw [hsearch] at h
          simp only [hequal, if_true, Attempt.outcome_bind, Attempt.outcome_lift,
            Attempt.outcome_pure, Except.bind_eq_ok_iff] at h
          obtain ⟨-, -, -, -, arguments, -, h⟩ := h
          cases h

/-- **Partial matches need several lines.** Take a template whose requirements are no patterns. A
message of which it only matches a part has a line feed. What its pattern finds in a message without
line feed is the whole message. -/
theorem partial_match_spans_lines {identity separator : String} {template : Value}
    {options : TemplateOptions} {channel : Channel} {t : Template}
    (hcompile : (compile identity template options separator channel).outcome = .ok t)
    (htextual : ∀ entry ∈ options.requirements, entry.2.IsTextual) (message : Message) :
    (∀ text, (t.recognize message).outcome = .ok (.rejected (.partialMatch text)) →
      '\n' ∈ message.text.toList) ∧
    ('\n' ∉ message.text.toList → ∀ found, t.pattern.search message.text = some found →
      found.before = [] ∧ found.text = message.text.toList) := by
  obtain ⟨text, rfl, o, ho⟩ := exists_describes_of_compile hcompile
  have hmade := ho.madeOfOutline (textual_of_isTextual htextual _) hcompile
  have hwhole : '\n' ∉ message.text.toList → ∀ found, t.pattern.search message.text = some found →
      found.before = [] ∧ found.text = message.text.toList := by
    intro hline found hfound
    rw [Pattern.search, hmade.expr_eq] at hfound
    exact Expr.search_single_line hline hfound
  refine ⟨fun text hpartial => ?_, hwhole⟩
  obtain ⟨found, hfound, hpart⟩ := exists_search_of_partialMatch hpartial
  by_contra hline
  exact hpart (hwhole hline found hfound).2

/-- A message of two lines of which only the first one matches. -/
theorem partial_match_spans_lines_words :
    ∃ t, (compile "hall" (.text "w [:a] [:b c]") {}).outcome = .ok t ∧
      (t.recognize { text := "w a\nb" }).outcome = .ok (.rejected (.partialMatch "w a")) ∧
      (∀ text, (t.recognize { text := "w a\nb" }).outcome = .ok (.rejected (.partialMatch text)) →
        '\n' ∈ "w a\nb".toList) ∧
      ('\n' ∉ "w a\nb".toList → ∀ found, t.pattern.search "w a\nb" = some found →
        found.before = [] ∧ found.text = "w a\nb".toList) := by
  obtain ⟨t, hcompile, hpartial⟩ : ∃ t,
      (compile "hall" (.text "w [:a] [:b c]") {}).outcome = .ok t ∧
      (t.recognize { text := "w a\nb" }).outcome = .ok (.rejected (.partialMatch "w a")) :=
    ⟨_, rfl, rfl⟩
  exact ⟨t, hcompile, hpartial, partial_match_spans_lines hcompile nofun { text := "w a\nb" }⟩

/-- **More defaults lose no message.** Take a template whose requirements are no patterns, and compile
it twice, the second time with defaults for all the parameters that have one the first time, whatever
these defaults are. Each message of one line that the first template recognizes is recognized by the
second. -/
theorem defaults_keep_messages {identity separator : String} {template : Value}
    {options : TemplateOptions} {channel : Channel} {defaults more : Bindings} {t t' : Template}
    (hmore : ∀ name, defaults.has name = true → more.has name = true)
    (htextual : ∀ entry ∈ options.requirements, entry.2.IsTextual)
    (hcompile : (compile identity template { options with defaults } separator channel).outcome =
      .ok t)
    (hcompile' : (compile identity template { options with defaults := more } separator
      channel).outcome = .ok t')
    {message : Message} (hline : '\n' ∉ message.text.toList)
    (hrecognized : ∃ arguments, (t.recognize message).outcome = .ok (.recognized arguments)) :
    ∃ arguments, (t'.recognize message).outcome = .ok (.recognized arguments) := by
  obtain ⟨text, rfl, o, ho⟩ := exists_describes_of_compile hcompile
  have hwords := textual_of_isTextual htextual o.words
  have hmade : MadeOfOutline t { options with defaults } _ := ho.madeOfOutline hwords hcompile
  have hmade' : MadeOfOutline t' { options with defaults := more } _ :=
    ho.madeOfOutline hwords hcompile'
  obtain ⟨hrefusal, b, hread⟩ :=
    (hmade.recognized_iff_reading (sound_of_compile hcompile) hline).mp hrecognized
  refine (hmade'.recognized_iff_reading (sound_of_compile hcompile') hline).mpr ⟨?_, b, ?_⟩
  · rw [refusal?, hmade'.inPublic_eq, hmade'.inPrivate_eq]
    rwa [refusal?, hmade.inPublic_eq, hmade.inPrivate_eq] at hrefusal
  · exact o.readings_ofWord_mono hmore false _ _ hread

/-- A template with a suffix, and with a parameter in a segment. -/
def lendText : String := "lend :what? [to :who now]"

/-- Its options but for the defaults: only Bob may be lent to. -/
def lendOptions : TemplateOptions := { requirements := [("who", .text "bob")] }

/-- A message that it recognizes when the parameter in the segment has a default, and also when both
have one. -/
theorem defaults_keep_messages_lend :
    ∃ t t', (compile "hall" (.text lendText)
        { lendOptions with defaults := [("who", .null)] }).outcome = .ok t ∧
      (compile "hall" (.text lendText)
        { lendOptions with defaults := [("what", .text "it"), ("who", .bool false)] }).outcome =
          .ok t' ∧
      (∃ arguments, (t.recognize { text := "lend a? to bob now" }).outcome =
        .ok (.recognized arguments)) ∧
      ∃ arguments, (t'.recognize { text := "lend a? to bob now" }).outcome =
        .ok (.recognized arguments) := by
  have hmore : ∀ name, Bindings.has [("who", .null)] name = true →
      Bindings.has [("what", .text "it"), ("who", .bool false)] name = true := by
    intro name
    simp only [Bindings.has, Bindings.get?, List.lookup_cons, List.lookup_nil]
    cases name == "who" <;> cases name == "what" <;> simp
  have htextual : ∀ entry ∈ lendOptions.requirements, entry.2.IsTextual := by
    simp [lendOptions, Value.IsTextual]
  obtain ⟨t, t', hcompile, hcompile', hrecognized⟩ : ∃ t t',
      (compile "hall" (.text lendText)
        { lendOptions with defaults := [("who", .null)] }).outcome = .ok t ∧
      (compile "hall" (.text lendText)
        { lendOptions with defaults := [("what", .text "it"), ("who", .bool false)] }).outcome =
          .ok t' ∧
      ∃ arguments, (t.recognize { text := "lend a? to bob now" }).outcome =
        .ok (.recognized arguments) := ⟨_, _, rfl, rfl, _, rfl⟩
  exact ⟨t, t', hcompile, hcompile', hrecognized,
    defaults_keep_messages hmore htextual hcompile hcompile' (by decide) hrecognized⟩

end Template

end Switchboard
