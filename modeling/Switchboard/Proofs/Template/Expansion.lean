import Switchboard.Proofs.Template.Outline
import Switchboard.Proofs.Template.Recognition

/-!
# Expansions

An expansion of a template with brackets is a list of words: each segment is kept or dropped with
all that it holds, each parameter with a default is kept or dropped, a literal stands for itself,
and a parameter for any word (`Outline.Expands`).

A message that is recognized is an expansion of the template. Each way through the pattern of an
outline reads an expansion of it (`expands_of_mem_ways`), by induction on the outline. Where the
pattern asks for blanks, the words read before and behind them are kept apart. It does so between
all neighbours: a segment has the blanks in front of it in its group, and what follows the segment
has its own. Only at the start of a row no blanks need to be read, and there is nothing in front of
it in the row.

## Main results

* `Outline.expands_of_mem_ways`: each way through an outline reads an expansion of it.
* `Template.recognized_is_expansion`: a recognized message is an expansion of the template, and its
  arguments are what the parameters stand for in it.
-/

namespace Switchboard

open Pattern

/-- What a part takes when it is dropped. -/
def Part.untaken : Part → Takings
  | .literal _ => []
  | .parameter name _ _ _ => [(name, none)]

namespace Outline

/-- What the parts of an outline take when all of it is dropped. -/
def untaken (o : Outline Part) : Takings := o.words.flatMap Part.untaken

/-- The outline can stand for these words, and its parameters for what they then take. -/
inductive Expands : Outline Part → List (List Char) → Takings → Prop where
  | done (gap : Bool) : Expands (done gap) [] []
  | word {gap : Bool} {part : Part} {rest : Outline Part} {w : List Char} {ws : List (List Char)}
      {b bs : Takings} (hpart : part.Takes w b) (hrest : Expands rest ws bs) :
      Expands (word gap part rest) (w :: ws) (b ++ bs)
  | skips {gap : Bool} {name : String} {rest : Outline Part} {ws : List (List Char)} {bs : Takings}
      (hrest : Expands rest ws bs) :
      Expands (word gap (.parameter name .word true []) rest) ws ((name, none) :: bs)
  | keeps {gap : Bool} {body rest : Outline Part} {ws vs : List (List Char)} {b bs : Takings}
      (hbody : Expands body ws b) (hrest : Expands rest vs bs) :
      Expands (segment gap body rest) (ws ++ vs) (b ++ bs)
  | drops {gap : Bool} {body rest : Outline Part} {vs : List (List Char)} {bs : Takings}
      (hrest : Expands rest vs bs) :
      Expands (segment gap body rest) vs (body.untaken ++ bs)

end Outline

/-! ### Takings -/

theorem Part.length_untaken (part : Part) : part.untaken.length = part.groups := by
  cases part <;> rfl

/-- Nothing is captured by what is not taken. -/
theorem recorded_of_not_taken {b : Takings} (h : ∀ entry ∈ b, entry.2 = none) (g : Nat)
    (captures : List (Nat × List Char)) : recorded g b captures = captures := by
  induction b generalizing g with
  | nil => rfl
  | cons entry b ih =>
      obtain ⟨name, taken⟩ := entry
      obtain rfl : taken = none := h _ List.mem_cons_self
      exact ih (fun entry hentry => h entry (List.mem_cons_of_mem _ hentry)) (g + 1)

namespace Outline

theorem length_untaken (o : Outline Part) : o.untaken.length = o.groups := by
  unfold untaken
  induction o with
  | done gap => rfl
  | word gap part rest ih =>
      rw [words, List.flatMap_cons, List.length_append, part.length_untaken, ih, groups]
  | segment gap body rest ihbody ihrest =>
      rw [words, List.flatMap_append, List.length_append, ihbody, ihrest, groups]

theorem eq_none_of_mem_untaken {o : Outline Part} {entry : String × Option (List Char)}
    (h : entry ∈ o.untaken) : entry.2 = none := by
  obtain ⟨part, -, hentry⟩ := List.mem_flatMap.mp h
  cases part with
  | literal text => cases hentry
  | parameter name extent optional suffix =>
      obtain rfl := List.mem_singleton.mp hentry
      rfl

/-- An expansion takes as much as the outline has groups. -/
theorem Expands.length_eq {o : Outline Part} {ws : List (List Char)} {b : Takings}
    (h : o.Expands ws b) : b.length = o.groups := by
  induction h with
  | done gap => rfl
  | word hpart _ ih => rw [List.length_append, hpart.length_eq, ih, groups]
  | skips _ ih => rw [List.length_cons, ih, groups, Part.groups, Nat.add_comm]
  | keeps _ _ ihbody ihrest => rw [List.length_append, ihbody, ihrest, groups]
  | drops _ ih => rw [List.length_append, length_untaken, ih, groups]

end Outline

/-! ### What the ways through an outline read -/

/-- A part in which a parameter stands for one word, and has no suffix. -/
def Part.Bare : Part → Prop
  | .literal text => IsWord text
  | .parameter _ extent _ suffix => extent = .word ∧ suffix = []

theorem Part.Bare.plain {part : Part} (h : part.Bare) : part.Plain := by
  cases part with
  | literal text => exact h
  | parameter name extent optional suffix =>
      obtain ⟨rfl, rfl⟩ := h
      exact ⟨rfl, fun _ => rfl, fun c hc => nomatch hc⟩

/-- Blanks are read where the pattern asks for them. -/
theorem exists_blanks_of_mem_ways {lead : Bool} {st st' : State}
    (h : st' ∈ waysAll ((leadPieces lead).map (·.expr)) st) :
    ∃ blanks, (∀ c ∈ blanks, isBlank c = true) ∧ (lead = true → blanks ≠ []) ∧
      st.after = blanks ++ st'.after ∧ st'.captures = st.captures := by
  cases lead with
  | false =>
      obtain rfl := List.mem_singleton.mp h
      exact ⟨[], nofun, nofun, rfl, rfl⟩
  | true =>
      have hways : waysAll ((leadPieces true).map (·.expr)) st = blankRun.ways st :=
        waysAll_singleton blankRun st
      rw [hways] at h
      obtain ⟨blanks, hne, hblanks, hafter, rfl⟩ := Expr.exists_run_of_mem_ways h
      rw [contains_blankSet] at hblanks
      exact ⟨blanks, hblanks, fun _ => hne, hafter, rfl⟩

/-- Behind the blanks a part reads a word that it takes. -/
theorem exists_takes_of_mem_bodyWays {part : Part} (hpart : part.Bare) {g : Nat} {st st' : State}
    (h : st' ∈ bodyWays g part st) :
    ∃ w b, IsWord w ∧ part.Takes w b ∧ st.after = w ++ st'.after ∧
      st'.captures = recorded g b st.captures := by
  cases part with
  | literal text =>
      rw [bodyWays, waysAll_literal] at h
      split at h
      · rename_i hstart
        obtain ⟨rest, hrest⟩ := hstart
        obtain rfl := List.mem_singleton.mp h
        refine ⟨text, [], hpart, .literal text, ?_, rfl⟩
        simp [State.advance, ← hrest]
      · cases h
  | parameter name extent optional suffix =>
      obtain ⟨rfl, rfl⟩ := hpart
      have hways : bodyWays g (.parameter name .word optional []) st = (wordGroup g).ways st :=
        List.flatMap_singleton' _
      rw [hways, wordGroup, Expr.ways] at h
      obtain ⟨inner, hinner, rfl⟩ := List.mem_map.mp h
      obtain ⟨w, hne, hw, hafter, rfl⟩ := Expr.exists_run_of_mem_ways hinner
      rw [contains_wordSet] at hw
      have hcapture : st.after.take (st.after.length - (st.advance w.length).after.length) = w := by
        rw [hafter]
        simp [State.advance]
      have htakes : (Part.parameter name .word optional []).Takes (w ++ []) [(name, some w)] :=
        .word hne
      rw [List.append_nil] at htakes
      refine ⟨w, [(name, some w)], ⟨hne, hw⟩, htakes, hafter, ?_⟩
      rw [State.capture, hcapture]
      rfl

/-- Blanks and a text behind them do not go on with a word. -/
theorem not_starts_blanks_append {blanks : List Char} (hblanks : ∀ c ∈ blanks, isBlank c = true)
    (hne : blanks ≠ []) (cs : List Char) : ¬ Starts nonblank (blanks ++ cs) := by
  obtain ⟨c, blanks, rfl⟩ := List.exists_cons_of_ne_nil hne
  simp [nonblank, hblanks c List.mem_cons_self]

namespace Outline

/-- From one state to another, so many groups before it, the outline reads an expansion. What it
reads starts with a blank, if anything is read, unless a row starts here. -/
def ReadsExpansion (o : Outline Part) (first : Bool) (g : Nat) (st st' : State) : Prop :=
  ∃ read b, st.after = read ++ st'.after ∧ (first = false → ¬ Starts nonblank read) ∧
    o.Expands (Switchboard.words read) b ∧ st'.captures = recorded g b st.captures

section

variable {gap glued first : Bool} {rest : Outline Part} {g : Nat} {st mid st' : State}

/-- A word and what comes behind it. -/
theorem readsExpansion_word {part : Part} (hpart : part.Bare)
    (hlead : first = false → lead gap glued = true)
    (hmid : mid ∈ waysAll ((part.pieces (lead gap glued) g).map (·.expr)) st)
    (hrest : rest.ReadsExpansion false (g + part.groups) mid st') :
    (word gap part rest).ReadsExpansion first g st st' := by
  obtain ⟨read, bs, hafter, hstart, hexpands, hcaptures⟩ := hrest
  rw [waysAll_pieces_lead hpart.plain, List.mem_append, List.mem_flatMap] at hmid
  rcases hmid with ⟨open', hopen, hbody⟩ | hskip
  · -- the part takes a word behind the blanks
    obtain ⟨blanks, hblanks, hne, hopened, hkept⟩ := exists_blanks_of_mem_ways hopen
    obtain ⟨w, b, hw, htakes, hword, hrecorded⟩ := exists_takes_of_mem_bodyWays hpart hbody
    have hwords : Switchboard.words (blanks ++ w ++ read) = w :: Switchboard.words read := by
      rw [List.append_assoc, words_blanks_append hblanks, words_word_append hw (hstart rfl)]
    refine ⟨blanks ++ w ++ read, b ++ bs, ?_, ?_, hwords ▸ .word htakes hexpands, ?_⟩
    · rw [hopened, hword, hafter]
      simp
    · intro hfirst
      rw [List.append_assoc]
      exact not_starts_blanks_append hblanks (hne (hlead hfirst)) _
    · rw [hcaptures, hrecorded, hkept, recorded_append, htakes.length_eq]
  · -- the part is skipped
    cases hoptional : part.isOptional with
    | false => simp [hoptional] at hskip
    | true =>
        obtain ⟨name, rfl⟩ := hpart.plain.eq_of_isOptional hoptional
        obtain rfl : mid = st := by simpa [Part.isOptional] using hskip
        exact ⟨read, (name, none) :: bs, hafter, fun _ => hstart rfl, .skips hexpands, hcaptures⟩

/-- A segment that is kept and what comes behind it. -/
theorem readsExpansion_keeps {body : Outline Part}
    (hlead : first = false → lead gap glued = true) {opened : State}
    (hopened : opened ∈ waysAll ((leadPieces (lead gap glued)).map (·.expr)) st)
    (hbody : body.ReadsExpansion true g opened mid)
    (hrest : rest.ReadsExpansion false (g + body.groups) mid st') :
    (segment gap body rest).ReadsExpansion first g st st' := by
  obtain ⟨blanks, hblanks, hne, hafter, hkept⟩ := exists_blanks_of_mem_ways hopened
  obtain ⟨inner, b, hinner, -, hinside, hrecorded⟩ := hbody
  obtain ⟨read, bs, hread, hstart, hexpands, hcaptures⟩ := hrest
  have hwords : Switchboard.words (blanks ++ inner ++ read) =
      Switchboard.words inner ++ Switchboard.words read := by
    rw [List.append_assoc, words_blanks_append hblanks, words_append (hstart rfl)]
  refine ⟨blanks ++ inner ++ read, b ++ bs, ?_, ?_, hwords ▸ .keeps hinside hexpands, ?_⟩
  · rw [hafter, hinner, hread]
    simp
  · intro hfirst
    rw [List.append_assoc]
    exact not_starts_blanks_append hblanks (hne (hlead hfirst)) _
  · rw [hcaptures, hrecorded, hkept, recorded_append, hinside.length_eq]

/-- A segment that is dropped and what comes behind it. -/
theorem readsExpansion_drops {body : Outline Part}
    (hrest : rest.ReadsExpansion false (g + body.groups) st st') :
    (segment gap body rest).ReadsExpansion first g st st' := by
  obtain ⟨read, bs, hread, hstart, hexpands, hcaptures⟩ := hrest
  refine ⟨read, body.untaken ++ bs, hread, fun _ => hstart rfl, .drops hexpands, ?_⟩
  rw [hcaptures, recorded_append, length_untaken,
    recorded_of_not_taken fun _ => eq_none_of_mem_untaken]

end

/-- **Each way through an outline reads an expansion of it.** -/
theorem expands_of_mem_ways {o : Outline Part} (hbare : ∀ part ∈ o.words, part.Bare)
    {first glued : Bool} (hspaced : o.Spaced first) (hglued : first = false → glued = false)
    {g : Nat} {st st' : State} (h : st' ∈ waysAll ((o.pieces glued g).map (·.expr)) st) :
    o.ReadsExpansion first g st st' := by
  -- in front of a member that does not start its row the pattern asks for blanks
  have hlead : ∀ {gap first glued : Bool}, (first = false → gap = true) →
      (first = false → glued = false) → first = false → lead gap glued = true := by
    intro gap first glued hgap hglued hfirst
    rw [hgap hfirst, hglued hfirst]
    rfl
  induction o generalizing first glued g st st' with
  | done gap =>
      obtain rfl := List.mem_singleton.mp h
      exact ⟨[], [], rfl, fun _ => not_starts_nil _, .done gap, rfl⟩
  | word gap part rest ih =>
      obtain ⟨hgap, hrest⟩ := hspaced
      rw [pieces, List.map_append, waysAll_append, List.mem_flatMap] at h
      obtain ⟨mid, hmid, hnext⟩ := h
      exact readsExpansion_word (hbare part List.mem_cons_self) (hlead hgap hglued) hmid
        (ih (fun p hp => hbare p (List.mem_cons_of_mem part hp)) hrest (fun _ => rfl) hnext)
  | segment gap body rest ihbody ihrest =>
      obtain ⟨hgap, hbody, hrest⟩ := hspaced
      rw [pieces, List.map_cons, waysAll, List.mem_flatMap] at h
      obtain ⟨mid, hmid, hnext⟩ := h
      have hbehind := ihrest (fun p hp => hbare p (List.mem_append_right _ hp)) hrest (fun _ => rfl)
        hnext
      simp only [Expr.ways_optional, Piece.sequence, Expr.ways_seqAll, List.map_append,
        waysAll_append, List.mem_append, List.mem_flatMap, List.mem_singleton] at hmid
      rcases hmid with ⟨opened, hopened, hinner⟩ | rfl
      · have hinside := ihbody (fun p hp => hbare p (List.mem_append_left _ hp)) hbody
          (by simp) hinner
        exact readsExpansion_keeps (hlead hgap hglued) hopened hinside hbehind
      · exact readsExpansion_drops hbehind

/-- **A way through the pattern to the end of a message** reads an expansion of the outline. -/
theorem expands_of_whole {o : Outline Part} (hbare : ∀ part ∈ o.words, part.Bare)
    (hspaced : o.Spaced true) {message : List Char} {captures : List (Nat × List Char)}
    (h : Whole (waysAll o.patternExprs (.start message)) captures) :
    ∃ b, o.Expands (Switchboard.words message) b ∧ captures = recorded 0 b [] := by
  obtain ⟨st, hst, hafter, rfl⟩ := h
  have hway := List.mem_of_head? hst
  -- the way starts at the start of a line and ends at the end of one
  rw [patternExprs, waysAll, List.mem_flatMap] at hway
  obtain ⟨start, hstart, hway⟩ := hway
  obtain rfl : start = .start message := List.mem_singleton.mp hstart
  rw [waysAll_append, List.mem_flatMap] at hway
  obtain ⟨mid, hmid, hend⟩ := hway
  rw [waysAll_singleton, Expr.ways] at hend
  split at hend
  case isFalse => cases hend
  obtain rfl := List.mem_singleton.mp hend
  obtain ⟨read, b, hread, -, hexpands, hrecorded⟩ :=
    expands_of_mem_ways hbare hspaced (fun _ => rfl) hmid
  rw [hafter, List.append_nil] at hread
  obtain rfl : read = message := hread.symm
  exact ⟨b, hexpands, hrecorded⟩

end Outline

/-! ### From captures to arguments -/

/-- The parameter is the one of the taking, and is bound to a word or to its default. -/
structure Parameter.StandsFor (defaults : Bindings) (p : Parameter)
    (entry : String × Option (List Char)) : Prop where
  name_eq : p.name = entry.1
  default_eq : p.default = defaults.getD entry.1
  multi_eq : p.multi = false
  collector_eq : p.collector = none

/-- The arguments of parameters for one word each are what they have taken. -/
theorem bindAll_of_standsFor {t : Template} {parameters : List Parameter} {b : Takings}
    (h : List.Forall₂ (Parameter.StandsFor t.defaults) parameters b) :
    (t.bindAll parameters (b.map fun entry => entry.2.map String.ofList)).outcome =
      .ok (argumentsOf t.defaults b) := by
  induction h with
  | nil => rfl
  | @cons p entry parameters b hfirst _ ih =>
      obtain ⟨name, taken⟩ := entry
      obtain ⟨hname, hdefault, hmulti, hcollector⟩ := hfirst
      obtain rfl : p.name = name := hname
      have hdefault' : t.defaults.getD p.name = p.default := hdefault.symm
      rw [argumentsOf_cons, hdefault']
      exact outcome_bindAll_cons (outcome_bind_word t hmulti hcollector taken) ih

namespace Outline

/-- The parameters of a part stand for what is taken when it is dropped. -/
theorem standsFor_untaken {defaults : Bindings} {part : Part} (hpart : part.Bare)
    (optional : Bool) :
    List.Forall₂ (Parameter.StandsFor defaults)
      ((part.parameter? defaults).map fun p => { p with optional := optional || p.optional }).toList
      part.untaken := by
  cases part with
  | literal text => exact .nil
  | parameter name extent skippable suffix =>
      obtain ⟨rfl, rfl⟩ := hpart
      exact .cons ⟨rfl, rfl, rfl, rfl⟩ .nil

/-- The parameters of an outline stand for what is taken when all of it is dropped. -/
theorem parameters_standFor_untaken {defaults : Bindings} {o : Outline Part}
    (hbare : ∀ part ∈ o.words, part.Bare) (optional : Bool) :
    List.Forall₂ (Parameter.StandsFor defaults) (o.parameters defaults optional) o.untaken := by
  unfold untaken
  induction o generalizing optional with
  | done gap => exact .nil
  | word gap part rest ih =>
      exact List.rel_append (standsFor_untaken (hbare part List.mem_cons_self) optional)
        (ih (fun p hp => hbare p (List.mem_cons_of_mem part hp)) optional)
  | segment gap body rest ihbody ihrest =>
      rw [words, List.flatMap_append]
      exact List.rel_append (ihbody (fun p hp => hbare p (List.mem_append_left _ hp)) true)
        (ihrest (fun p hp => hbare p (List.mem_append_right _ hp)) optional)

/-- **The parameters of an outline stand for what an expansion of it takes.** -/
theorem parameters_standFor {defaults : Bindings} {o : Outline Part} {ws : List (List Char)}
    {b : Takings} (h : o.Expands ws b) (hbare : ∀ part ∈ o.words, part.Bare) (optional : Bool) :
    List.Forall₂ (Parameter.StandsFor defaults) (o.parameters defaults optional) b := by
  induction h generalizing optional with
  | done gap => exact .nil
  | @word gap part rest w ws b bs hpart hrest ih =>
      have hbehind := ih (fun p hp => hbare p (List.mem_cons_of_mem part hp)) optional
      refine List.rel_append ?_ hbehind
      cases hpart with
      | literal => exact .nil
      | word hvalue => exact .cons ⟨rfl, rfl, rfl, rfl⟩ .nil
  | skips hrest ih =>
      have hbehind := ih (fun p hp => hbare p (List.mem_cons_of_mem _ hp)) optional
      exact .cons ⟨rfl, rfl, rfl, rfl⟩ hbehind
  | keeps hbody hrest ihbody ihrest =>
      exact List.rel_append (ihbody (fun p hp => hbare p (List.mem_append_left _ hp)) true)
        (ihrest (fun p hp => hbare p (List.mem_append_right _ hp)) optional)
  | drops hrest ih =>
      exact List.rel_append
        (parameters_standFor_untaken (fun p hp => hbare p (List.mem_append_left _ hp)) true)
        (ih (fun p hp => hbare p (List.mem_append_right _ hp)) optional)

end Outline

/-- The arguments of a match are those of the expansion that its way has read. -/
theorem MadeOfOutline.bindAll_eq {t : Template} {options : TemplateOptions} {o : Outline Part}
    (h : MadeOfOutline t options o) (hbare : ∀ part ∈ o.words, part.Bare)
    {ws : List (List Char)} {b : Takings} (hexpands : o.Expands ws b) {found : Match}
    (hcaptures : found.captures = recorded 0 b []) :
    (t.bindAll t.parameters (t.matchedTexts found)).outcome =
      .ok (argumentsOf options.defaults b) := by
  have hgroups : t.pattern.groups = b.length := h.groups_eq.trans hexpands.length_eq.symm
  have harguments := @bindAll_of_standsFor t _ _
    (Outline.parameters_standFor hexpands hbare false)
  rw [h.defaults_eq] at harguments
  rw [matchedTexts_of_recorded hcaptures hgroups, h.parameters_eq, harguments]

/-! ### Recognizing -/

/-- The text of a template of words and segments that are kept apart by blanks, and in which each
parameter stands for one word, without suffix and without requirement. -/
structure SegmentTemplate (options : TemplateOptions) (text : String)
    (o : Outline (List Char)) : Prop where
  spells : o.Spells text
  spaced : o.Spaced true
  slots : ∀ w ∈ o.words, ∀ slot, Slot.ofWord? w = some slot →
    slot.multi = false ∧ slot.suffix = [] ∧
      options.requirements.getD (String.ofList slot.name) = .null

namespace SegmentTemplate

variable {options : TemplateOptions} {text : String} {o : Outline (List Char)}

theorem textual (h : SegmentTemplate options text o) : Textual options.requirements o.words :=
  fun w hw slot hslot => .inl (h.slots w hw slot hslot).2.2

theorem bare (h : SegmentTemplate options text o) :
    ∀ part ∈ (o.map (Part.ofWord options.defaults options.requirements)).words, part.Bare := by
  intro part hpart
  rw [Outline.words_map] at hpart
  obtain ⟨w, hw, rfl⟩ := List.mem_map.mp hpart
  rw [Part.ofWord]
  cases hslot : Slot.ofWord? w with
  | none => exact h.spells.isWord hw
  | some slot =>
      obtain ⟨hmulti, hsuffix, hnull⟩ := h.slots w hw slot hslot
      refine ⟨?_, hsuffix⟩
      rw [hmulti, hnull]
      rfl

end SegmentTemplate

namespace Template

/-- **A recognized message is an expansion of the template**: its words are, in order, those of the
segments that are kept, with a word for each parameter there, save that one with a default may be
dropped too. The arguments are the words that the parameters stand for, and the defaults of those
that have been dropped. -/
theorem recognized_is_expansion {identity separator text : String} {options : TemplateOptions}
    {channel : Channel} {t : Template} {o : Outline (List Char)}
    (hcompile : (compile identity (.text text) options separator channel).outcome = .ok t)
    (htemplate : SegmentTemplate options text o) {message : Message} {arguments : Arguments}
    (hrecognized : (t.recognize message).outcome = .ok (.recognized arguments)) :
    ∃ b, (o.map (.ofWord options.defaults options.requirements)).Expands
        (words message.text.toList) b ∧
      arguments = argumentsOf options.defaults b := by
  have hmade := madeOfOutline_of_compile htemplate.spells htemplate.spaced htemplate.textual
    hcompile
  obtain ⟨-, found, hfound, hbind⟩ := recognize_eq_recognized_iff.mp hrecognized
  have hwhole := exists_search_iff_whole.mp ⟨found, hfound, rfl⟩
  rw [hmade.expr_eq, Expr.ways_seqAll] at hwhole
  obtain ⟨b, hexpands, hcaptures⟩ :=
    Outline.expands_of_whole htemplate.bare (htemplate.spaced.map _) hwhole
  rw [hmade.bindAll_eq htemplate.bare hexpands hcaptures] at hbind
  exact ⟨b, hexpands, (Except.ok.inj hbind).symm⟩

/-- A template with a segment in another, and with a parameter that may be left out. -/
def karmaText : String := "karma [for [the] :nick] :when"

/-- Its options: the time does not matter. -/
def karmaOptions : TemplateOptions := { defaults := [("when", .bool false)] }

/-- Its outline. -/
def karmaOutline : Outline (List Char) :=
  .word false "karma".toList
    (.segment true
      (.word false "for".toList
        (.segment true (.word false "the".toList (.done false))
          (.word true ":nick".toList (.done false))))
      (.word true ":when".toList (.done false)))

theorem segmentTemplate_karma : SegmentTemplate karmaOptions karmaText karmaOutline := by
  refine ⟨by decide, by decide, fun w hw slot hslot => ?_⟩
  have hnames : ∀ w ∈ karmaOutline.words, ∀ slot ∈ Slot.ofWord? w,
      slot.multi = false ∧ slot.suffix = [] := by decide
  obtain ⟨hmulti, hsuffix⟩ := hnames w hw slot hslot
  exact ⟨hmulti, hsuffix, rfl⟩

/-- A message in which the outer segment is kept and the inner one is dropped. -/
theorem recognized_is_expansion_karma :
    ∃ t, (compile "hall" (.text karmaText) karmaOptions).outcome = .ok t ∧
      (t.recognize { text := "karma for bob" }).outcome =
        .ok (.recognized [("nick", .value (.text "bob"))]) ∧
      ∃ b, (karmaOutline.map (.ofWord karmaOptions.defaults karmaOptions.requirements)).Expands
          (words "karma for bob".toList) b ∧
        [("nick", .value (.text "bob"))] = argumentsOf karmaOptions.defaults b := by
  have hrun : ((compile "hall" (.text karmaText) karmaOptions).outcome.bind fun t =>
      (t.recognize { text := "karma for bob" }).outcome.mapError fun _ => default) =
        .ok (.recognized [("nick", .value (.text "bob"))]) := rfl
  obtain ⟨t, hcompile, hrecognize⟩ := Except.bind_eq_ok_iff.mp hrun
  have hrecognized := Except.mapError_eq_ok_iff.mp hrecognize
  exact ⟨t, hcompile, hrecognized,
    recognized_is_expansion hcompile segmentTemplate_karma hrecognized⟩

end Template

end Switchboard
