import Switchboard.Proofs.Template.Expansion

/-!
# Leaving Segments Out

Which segments of a template are kept is a choice, and a template of literals and segments should
recognize the words of each choice (`Outline.choices`), joined by single spaces. It does when each
segment starts with a word (`Outline.Solid`).

Only the existence of a way through the pattern has to be shown here. Where it ends follows from the
pattern, as there is no line feed in the message, and what it captures from
`Outline.expands_of_whole`.

When a segment starts with a segment, a choice may fail. The bracket of the outer segment takes the
blanks in front of it, and spares what comes next; but what comes next is a bracket, and when the
inner segment is left out, the word behind it asks for blanks of its own. The message would have to
have two blanks there (`nested_choice_not_recognized`).

## Main results

* `Outline.exists_way_of_expands`: an expansion joined by spaces has a way through a solid outline.
* `Template.expansion_is_recognized`: a solid template recognizes its expansions.
* `Template.every_choice_recognized`: a solid template of literals recognizes every choice.
-/

namespace Switchboard

open Pattern

namespace Outline

variable {α β : Type}

/-- The words of all choices of segments to keep. -/
def choices : Outline α → List (List α)
  | done _ => [[]]
  | word _ w rest => rest.choices.map (w :: ·)
  | segment _ body rest =>
      body.choices.flatMap (fun ws => rest.choices.map (ws ++ ·)) ++ rest.choices

/-- The row starts with a word of a kind. -/
def Opens (p : α → Prop) : Outline α → Prop
  | word _ w _ => p w
  | _ => False

/-- The rows in segments start with words of a kind. -/
def Solid (p : α → Prop) : Outline α → Prop
  | done _ => True
  | word _ _ rest => rest.Solid p
  | segment _ body rest => body.Opens p ∧ body.Solid p ∧ rest.Solid p

theorem opens_map_iff {p : β → Prop} {f : α → β} {o : Outline α} :
    (o.map f).Opens p ↔ o.Opens fun w => p (f w) := by
  cases o <;> rfl

theorem solid_map_iff {p : β → Prop} {f : α → β} {o : Outline α} :
    (o.map f).Solid p ↔ o.Solid fun w => p (f w) := by
  induction o with
  | done gap => rfl
  | word gap w rest ih => exact ih
  | segment gap body rest ihbody ihrest =>
      exact and_congr opens_map_iff (and_congr ihbody ihrest)

theorem Opens.imp {p q : α → Prop} (hpq : ∀ w, p w → q w) {o : Outline α} (h : o.Opens p) :
    o.Opens q := by
  cases o with
  | done gap => cases h
  | word gap w rest => exact hpq w h
  | segment gap body rest => cases h

theorem Solid.imp {p q : α → Prop} (hpq : ∀ w, p w → q w) {o : Outline α} (h : o.Solid p) :
    o.Solid q := by
  induction o with
  | done gap => trivial
  | word gap w rest ih => exact ih h
  | segment gap body rest ihbody ihrest => exact ⟨h.1.imp hpq, ihbody h.2.1, ihrest h.2.2⟩

end Outline

/-- A part that may not be skipped. -/
def Part.Required (part : Part) : Prop := part.isOptional = false

/-! ### Words behind spaces -/

/-- Words with a space in front of each. -/
def behindSpaces (ws : List (List Char)) : List Char := ws.flatMap (' ' :: ·)

@[simp] theorem behindSpaces_cons (w : List Char) (ws : List (List Char)) :
    behindSpaces (w :: ws) = ' ' :: (w ++ behindSpaces ws) := rfl

@[simp] theorem behindSpaces_append (ws vs : List (List Char)) :
    behindSpaces (ws ++ vs) = behindSpaces ws ++ behindSpaces vs :=
  List.flatMap_append

/-- The words of a row joined by spaces; with a space in front, unless a bracket has taken it. -/
def rowText (glued : Bool) (ws : List (List Char)) : List Char :=
  if glued then (behindSpaces ws).tail else behindSpaces ws

theorem intercalate_eq_rowText (ws : List (List Char)) :
    [' '].intercalate ws = rowText true ws := by
  cases ws with
  | nil => rfl
  | cons w ws =>
      have hrest : ∀ w ws, [' '].intercalate (w :: ws) = w ++ behindSpaces ws := by
        intro w ws
        induction ws generalizing w with
        | nil => simp [behindSpaces]
        | cons v ws ih => simp [List.intercalate_cons_cons, ih]
      exact hrest w ws

/-- No line ends in a text of words joined by spaces. -/
theorem not_mem_rowText {ws : List (List Char)} (h : ∀ w ∈ ws, IsWord w) :
    '\n' ∉ rowText true ws := by
  intro hmem
  obtain ⟨w, hw, hc⟩ := List.mem_flatMap.mp (List.mem_of_mem_tail hmem)
  have hword : '\n' ∈ w := by simpa using hc
  have hblank := (h w hw).nonblank _ hword
  exact absurd hblank (by decide)

namespace Outline

/-! ### A way through an expansion -/

/-- Where blanks are asked for, a space will do. -/
theorem exists_way_lead (lead : Bool) (st : State) {after : List Char}
    (h : st.after = (if lead then [' '] else []) ++ after) :
    ∃ opened ∈ waysAll ((leadPieces lead).map (·.expr)) st, opened.after = after := by
  cases lead with
  | false => exact ⟨st, List.mem_singleton_self st, h⟩
  | true =>
      have hways : waysAll ((leadPieces true).map (·.expr)) st = blankRun.ways st :=
        waysAll_singleton blankRun st
      refine ⟨st.advance 1, ?_, by simp [State.advance, h]⟩
      rw [hways, blankRun, Expr.ways_plus_set, contains_blankSet]
      refine List.mem_map.mpr ⟨0, ?_, rfl⟩
      simp [h, isBlank_space]

/-- A part has a way over a word that it takes. -/
theorem exists_way_of_takes {part : Part} (hpart : part.Bare) {w : List Char} {b : Takings}
    (htakes : part.Takes w b) (hw : IsWord w) (g : Nat) (st : State) {after : List Char}
    (h : st.after = w ++ after) : ∃ st' ∈ bodyWays g part st, st'.after = after := by
  cases htakes with
  | literal =>
      refine ⟨st.advance w.length, ?_, by simp [State.advance, h]⟩
      rw [bodyWays, waysAll_literal, if_pos (h ▸ List.prefix_append w after)]
      exact List.mem_singleton_self _
  | @word name optional value suffix hvalue =>
      obtain ⟨-, rfl⟩ := hpart
      rw [List.append_nil] at h hw
      have hways : bodyWays g (.parameter name .word optional []) st = (wordGroup g).ways st :=
        List.flatMap_singleton' _
      have hpos : 0 < value.length := List.length_pos_iff.mpr hvalue
      refine ⟨(st.advance value.length).capture (g + 1) st, ?_, by
        simp [State.capture, State.advance, h]⟩
      rw [hways, wordGroup, Expr.ways, Expr.ways_plus_set, contains_wordSet]
      refine List.mem_map_of_mem (List.mem_map.mpr ⟨value.length - 1, ?_, ?_⟩)
      · rw [List.mem_reverse, List.mem_range, h, List.takeWhile_append_of_pos hw.nonblank,
          List.length_append]
        omega
      · rw [Nat.sub_add_cancel hpos]

/-- The words of a row that starts with a word are some. -/
theorem Expands.exists_cons_of_opens {o : Outline Part} {ws : List (List Char)} {b : Takings}
    (h : o.Expands ws b) (hopens : o.Opens Part.Required) :
    ∃ w vs, ws = w :: vs := by
  cases h with
  | done => cases hopens
  | word => exact ⟨_, _, rfl⟩
  | skips => cases hopens
  | keeps => cases hopens
  | drops => cases hopens

/-- **An expansion joined by spaces has a way through a solid outline.** A row whose blanks have been
taken by a bracket starts with a word, and all other members ask for blanks of their own. -/
theorem exists_way_of_expands {o : Outline Part} {ws : List (List Char)} {b : Takings}
    (h : o.Expands ws b) (hbare : ∀ part ∈ o.words, part.Bare) (hws : ∀ w ∈ ws, IsWord w)
    (hsolid : o.Solid Part.Required) {glued : Bool} (hspaced : o.Spaced glued)
    (hopens : glued = true → o.Opens Part.Required) (g : Nat) (st : State)
    {after : List Char} (hafter : st.after = rowText glued ws ++ after) :
    ∃ st' ∈ waysAll ((o.pieces glued g).map (·.expr)) st, st'.after = after := by
  induction h generalizing glued g st after with
  | done gap =>
      cases glued with
      | false => exact ⟨st, List.mem_singleton_self st, hafter⟩
      | true => cases hopens rfl
  | @word gap part rest w ws b bs hpart hrest ih =>
      obtain ⟨hgap, hspaced⟩ := hspaced
      have hbarePart := hbare part List.mem_cons_self
      have hlead : lead gap glued = !glued := by
        cases glued with
        | false => simp [lead, hgap rfl]
        | true => simp [lead]
      have hread : st.after = (if lead gap glued then [' '] else []) ++
          (w ++ (behindSpaces ws ++ after)) := by
        rw [hafter, hlead]
        cases glued <;> simp [rowText]
      obtain ⟨opened, hopened, hword⟩ := exists_way_lead _ st hread
      obtain ⟨mid, hmid, hbehind⟩ :=
        exists_way_of_takes hbarePart hpart (hws w List.mem_cons_self) g opened hword
      obtain ⟨st', hst', hend⟩ := ih (fun p hp => hbare p (List.mem_cons_of_mem part hp))
        (fun v hv => hws v (List.mem_cons_of_mem w hv)) hsolid hspaced (by simp) (g + part.groups)
        mid hbehind
      refine ⟨st', ?_, hend⟩
      rw [pieces, List.map_append, waysAll_append, List.mem_flatMap]
      refine ⟨mid, ?_, hst'⟩
      rw [waysAll_pieces_lead hbarePart.plain]
      exact List.mem_append_left _ (List.mem_flatMap.mpr ⟨opened, hopened, hmid⟩)
  | @skips gap name rest ws bs hrest ih =>
      cases glued with
      | true => cases hopens rfl
      | false =>
          have hbarePart := hbare _ List.mem_cons_self
          obtain ⟨st', hst', hend⟩ := ih (fun p hp => hbare p (List.mem_cons_of_mem _ hp)) hws
            hsolid hspaced.2 (by simp) (g + 1) st hafter
          refine ⟨st', ?_, hend⟩
          rw [pieces, List.map_append, waysAll_append, List.mem_flatMap]
          refine ⟨st, ?_, hst'⟩
          rw [waysAll_pieces_lead hbarePart.plain]
          exact List.mem_append_right _ (List.mem_singleton_self st)
  | @keeps gap body rest ws vs b bs hbody hrest ihbody ihrest =>
      cases glued with
      | true => cases hopens rfl
      | false =>
          obtain ⟨hgap, hspacedBody, hspacedRest⟩ := hspaced
          obtain ⟨hopensBody, hsolidBody, hsolidRest⟩ := hsolid
          obtain rfl : gap = true := hgap rfl
          -- the bracket passes the space in front of the first word of the segment
          obtain ⟨w, ws, rfl⟩ := hbody.exists_cons_of_opens hopensBody
          have hread : st.after = [' '] ++
              (rowText true (w :: ws) ++ (behindSpaces vs ++ after)) := by
            rw [hafter]
            simp [rowText]
          obtain ⟨opened, hopened, hinside⟩ := exists_way_lead true st hread
          obtain ⟨mid, hmid, hbehind⟩ := ihbody (fun p hp => hbare p (List.mem_append_left _ hp))
            (fun v hv => hws v (List.mem_append_left _ hv)) hsolidBody hspacedBody
            (fun _ => hopensBody) g opened hinside
          obtain ⟨st', hst', hend⟩ := ihrest (fun p hp => hbare p (List.mem_append_right _ hp))
            (fun v hv => hws v (List.mem_append_right _ hv)) hsolidRest hspacedRest (by simp)
            (g + body.groups) mid hbehind
          refine ⟨st', ?_, hend⟩
          rw [pieces, List.map_cons, waysAll, List.mem_flatMap]
          refine ⟨mid, ?_, hst'⟩
          simp only [Expr.ways_optional, Piece.sequence, Expr.ways_seqAll, List.map_append,
            waysAll_append]
          exact List.mem_append_left _ (List.mem_flatMap.mpr ⟨opened, hopened, hmid⟩)
  | @drops gap body rest vs bs hrest ih =>
      cases glued with
      | true => cases hopens rfl
      | false =>
          obtain ⟨st', hst', hend⟩ := ih (fun p hp => hbare p (List.mem_append_right _ hp)) hws
            hsolid.2.2 hspaced.2.2 (by simp) (g + body.groups) st hafter
          refine ⟨st', ?_, hend⟩
          rw [pieces, List.map_cons, waysAll, List.mem_flatMap]
          refine ⟨st, ?_, hst'⟩
          rw [Expr.ways_optional]
          exact List.mem_append_right _ (List.mem_singleton_self st)

/-- **The first way through the pattern is over the whole message**, when this is an expansion joined
by spaces. Some way ends there, and in a message of one line all of them do. -/
theorem exists_whole_of_expands {part : Part} {rest : Outline Part} {ws : List (List Char)}
    {b : Takings} (h : (word false part rest).Expands ws b)
    (hbare : ∀ p ∈ (word false part rest).words, p.Bare) (hws : ∀ w ∈ ws, IsWord w)
    (hsolid : rest.Solid Part.Required)
    (hspaced : (word false part rest).Spaced true) (hrequired : part.Required) :
    ∃ captures, Whole (waysAll (word false part rest).patternExprs (.start (rowText true ws)))
      captures := by
  -- without blanks in front of it, the first word is read as if a bracket had taken them
  have hglued : (word false part rest).pieces false 0 = (word false part rest).pieces true 0 := rfl
  obtain ⟨st', hst', hend⟩ := exists_way_of_expands h hbare hws hsolid hspaced
    (fun _ => hrequired) 0 (.start (rowText true ws)) (List.append_nil _).symm
  have hways : waysAll (word false part rest).patternExprs (.start (rowText true ws)) =
      (waysAll (((word false part rest).pieces true 0).map (·.expr))
        (.start (rowText true ws))).flatMap fun st =>
          if Anchor.lineEnd.holds st then [st] else [] := by
    have hanchor : (Expr.anchor .lineStart).ways (.start (rowText true ws)) =
        [.start (rowText true ws)] := rfl
    rw [patternExprs, hglued, waysAll, hanchor, List.flatMap_singleton, waysAll_append]
    congr 1
    funext st
    exact waysAll_singleton _ st
  have hmem : st' ∈ waysAll (word false part rest).patternExprs (.start (rowText true ws)) := by
    rw [hways]
    refine List.mem_flatMap.mpr ⟨st', hst', ?_⟩
    simp [Anchor.holds, hend]
  obtain ⟨first, ways, hfirst⟩ := List.exists_cons_of_ne_nil (List.ne_nil_of_mem hmem)
  have hline : Anchor.lineEnd.holds first = true := by
    have hin : first ∈ waysAll (word false part rest).patternExprs (.start (rowText true ws)) :=
      hfirst ▸ List.mem_cons_self
    rw [hways, List.mem_flatMap] at hin
    obtain ⟨st, -, hin⟩ := hin
    split at hin
    case isTrue hholds =>
      obtain rfl := List.mem_singleton.mp hin
      exact hholds
    case isFalse => cases hin
  have hleads : (State.start (rowText true ws)).Leads first := by
    rw [← Expr.ways_seqAll] at hfirst
    exact Expr.leads_of_mem_ways (hfirst ▸ List.mem_cons_self)
  refine ⟨first.captures, first, by rw [hfirst]; rfl, ?_, rfl⟩
  cases hafter : first.after with
  | nil => rfl
  | cons c cs =>
      obtain rfl : c = '\n' := by simpa [Anchor.holds, hafter] using hline
      obtain ⟨read, hread, -⟩ := hleads
      have hin : '\n' ∈ rowText true ws := by
        have htext : rowText true ws = read ++ first.after := hread
        rw [htext, hafter]
        simp
      exact absurd hin (not_mem_rowText hws)

end Outline

/-- Words joined by spaces are the words of the text. -/
theorem words_rowText {ws : List (List Char)} (h : ∀ w ∈ ws, IsWord w) :
    words (rowText true ws) = ws := by
  rw [← intercalate_eq_rowText]
  exact words_intercalate_iff.mpr h

namespace Outline

/-! ### Outlines of literals -/

theorem map_congr_of_mem {α β : Type} {f g : α → β} {o : Outline α}
    (h : ∀ w ∈ o.words, f w = g w) : o.map f = o.map g := by
  induction o with
  | done gap => rfl
  | word gap w rest ih =>
      rw [map, map, h w List.mem_cons_self, ih fun v hv => h v (List.mem_cons_of_mem w hv)]
  | segment gap body rest ihbody ihrest =>
      rw [map, map, ihbody fun v hv => h v (List.mem_append_left _ hv),
        ihrest fun v hv => h v (List.mem_append_right _ hv)]

theorem groups_map_literal (o : Outline (List Char)) : (o.map Part.literal).groups = 0 := by
  induction o with
  | done gap => rfl
  | word gap w rest ih => simp [map, groups, Part.groups, ih]
  | segment gap body rest ihbody ihrest => simp [map, groups, ihbody, ihrest]

/-- A choice of segments is an expansion of an outline of literals. -/
theorem expands_of_mem_choices {o : Outline (List Char)} {ws : List (List Char)}
    (h : ws ∈ o.choices) : (o.map Part.literal).Expands ws [] := by
  induction o generalizing ws with
  | done gap =>
      obtain rfl := List.mem_singleton.mp h
      exact .done gap
  | word gap w rest ih =>
      obtain ⟨vs, hvs, rfl⟩ := List.mem_map.mp h
      exact .word (.literal w) (ih hvs)
  | segment gap body rest ihbody ihrest =>
      rcases List.mem_append.mp h with hkept | hdropped
      · obtain ⟨vs, hvs, hrest⟩ := List.mem_flatMap.mp hkept
        obtain ⟨us, hus, rfl⟩ := List.mem_map.mp hrest
        exact .keeps (ihbody hvs) (ihrest hus)
      · have hnone : (body.map Part.literal).untaken = [] :=
          List.eq_nil_of_length_eq_zero (by rw [length_untaken, groups_map_literal])
        have hdrops : ((segment gap body rest).map Part.literal).Expands ws
            ((body.map Part.literal).untaken ++ []) := .drops (ihrest hdropped)
        rwa [hnone] at hdrops

/-- The words of a choice are words of the outline. -/
theorem mem_words_of_mem_choices {α : Type} {o : Outline α} {ws : List α} (h : ws ∈ o.choices)
    {w : α} (hw : w ∈ ws) : w ∈ o.words := by
  induction o generalizing ws with
  | done gap =>
      obtain rfl := List.mem_singleton.mp h
      cases hw
  | word gap v rest ih =>
      obtain ⟨vs, hvs, rfl⟩ := List.mem_map.mp h
      rcases List.mem_cons.mp hw with rfl | hlater
      · exact List.mem_cons_self
      · exact List.mem_cons_of_mem v (ih hvs hlater)
  | segment gap body rest ihbody ihrest =>
      rcases List.mem_append.mp h with hkept | hdropped
      · obtain ⟨vs, hvs, hrest⟩ := List.mem_flatMap.mp hkept
        obtain ⟨us, hus, rfl⟩ := List.mem_map.mp hrest
        rcases List.mem_append.mp hw with hbody | hbehind
        · exact List.mem_append_left _ (ihbody hvs hbody)
        · exact List.mem_append_right _ (ihrest hus hbehind)
      · exact List.mem_append_right _ (ihrest hdropped hw)

end Outline

/-! ### The start of a template -/

namespace Outline

/-- No blanks stand in front of a template. -/
theorem Spells.eq_word {o : Outline (List Char)} {text : String} (h : o.Spells text)
    {p : List Char → Prop} (hopens : o.Opens p) :
    ∃ first rest, o = word false first rest ∧ p first := by
  cases o with
  | done gap => cases hopens
  | segment gap body rest => cases hopens
  | word gap first rest =>
      cases gap with
      | false => exact ⟨first, rest, rfl, hopens⟩
      | true =>
          have hlexemes : (Lexeme.ofText text).map Lexeme.bare =
              .blank [] :: .word first :: rest.lexemes := h
          rw [List.map_eq_cons_iff] at hlexemes
          obtain ⟨l, ls, hscan, hbare, -⟩ := hlexemes
          cases l with
          | blank run =>
              have hrun : IsGap run := Lexeme.whole_of_scan hscan
              exact absurd (Lexeme.starts_of_scan hscan hrun.blank) (not_starts_trim _)
          | opening => cases hbare
          | closing => cases hbare
          | word text => cases hbare

end Outline

/-! ### Recognizing -/

namespace Template

/-- **A solid template recognizes its expansions**: a message of words joined by single spaces that
are an expansion of the template is recognized, if the template starts with a literal, each segment
starts with a word, and none of these first words is a parameter with a default. -/
theorem expansion_is_recognized {identity separator text : String} {options : TemplateOptions}
    {channel : Channel} {t : Template} {o : Outline (List Char)}
    (hcompile : (compile identity (.text text) options separator channel).outcome = .ok t)
    (htemplate : SegmentTemplate options text o)
    (hopens : (o.map (.ofWord options.defaults options.requirements)).Opens Part.Required)
    (hsolid : (o.map (.ofWord options.defaults options.requirements)).Solid Part.Required)
    (hpublic : options.inPublic ≠ some false) (hprivate : options.inPrivate ≠ some false)
    {ws : List (List Char)} {b : Takings}
    (hexpands : (o.map (.ofWord options.defaults options.requirements)).Expands ws b)
    (hws : ∀ w ∈ ws, IsWord w) {message : Message}
    (htext : message.text.toList = [' '].intercalate ws) :
    ∃ b', (o.map (.ofWord options.defaults options.requirements)).Expands ws b' ∧
      (t.recognize message).outcome =
        .ok (.recognized (argumentsOf options.defaults b')) := by
  have hmade := madeOfOutline_of_compile htemplate.spells htemplate.spaced htemplate.textual
    hcompile
  have hbare := htemplate.bare
  have hspaced := htemplate.spaced.map (Part.ofWord options.defaults options.requirements)
  obtain ⟨first, rest, rfl, hfirst⟩ :=
    htemplate.spells.eq_word (Outline.opens_map_iff.mp hopens)
  rw [intercalate_eq_rowText] at htext
  obtain ⟨captures, hwhole⟩ :=
    Outline.exists_whole_of_expands hexpands hbare hws hsolid hspaced hfirst
  obtain ⟨b', hexpands', hcaptures⟩ := Outline.expands_of_whole hbare hspaced hwhole
  rw [words_rowText hws] at hexpands'
  refine ⟨b', hexpands', ?_⟩
  have hrefusal : t.refusal? message.isPrivate = none := by
    rw [← hmade.inPublic_eq] at hpublic
    rw [← hmade.inPrivate_eq] at hprivate
    simp [refusal?, hpublic, hprivate]
  have hsearch : Whole (t.pattern.expr.ways (.start message.text.toList)) captures := by
    rw [hmade.expr_eq, Expr.ways_seqAll, htext]
    exact hwhole
  obtain ⟨found, hfound, hsame⟩ := exists_search_iff_whole.mpr hsearch
  exact recognize_eq_recognized_iff.mpr ⟨hrefusal, found, hfound,
    hmade.bindAll_eq hbare hexpands' (hsame.trans hcaptures)⟩

end Template

/-- The text of a template of literals and segments that are kept apart by blanks. It starts with a
literal, and so does each segment. -/
structure LiteralTemplate (text : String) (o : Outline (List Char)) : Prop where
  spells : o.Spells text
  spaced : o.Spaced true
  literal : ∀ w ∈ o.words, Slot.ofWord? w = none
  opens : o.Opens fun _ => True
  solid : o.Solid fun _ => True

namespace Outline

theorem length_parameters (defaults : Bindings) (optional : Bool) (o : Outline Part) :
    (o.parameters defaults optional).length = o.groups := by
  induction o generalizing optional with
  | done gap => rfl
  | word gap part rest ih =>
      rw [parameters, List.length_append, ih, groups]
      cases part <;> rfl
  | segment gap body rest ihbody ihrest =>
      rw [parameters, List.length_append, ihbody, ihrest, groups]

/-- The items of literals are no parameters. -/
theorem isParameter_of_mem_items {o : Outline (List Char)}
    (h : ∀ w ∈ o.words, Slot.ofWord? w = none) {optional : Bool} {item : Item}
    (hitem : item ∈ o.items optional) : item.isParameter = false := by
  induction o generalizing optional with
  | done gap => cases hitem
  | word gap w rest ih =>
      rcases List.mem_append.mp hitem with hfirst | hlater
      · rw [Item.ofWord, h w List.mem_cons_self] at hfirst
        obtain rfl := List.mem_singleton.mp hfirst
        rfl
      · exact ih (fun v hv => h v (List.mem_cons_of_mem w hv)) hlater
  | segment gap body rest ihbody ihrest =>
      rcases List.mem_append.mp hitem with hbody | hrest
      · exact ihbody (fun v hv => h v (List.mem_append_left _ hv)) hbody
      · exact ihrest (fun v hv => h v (List.mem_append_right _ hv)) hrest

end Outline

/-- Items that are no parameters have no names. -/
theorem filterMap_name?_eq_nil {items : List Item} (h : ∀ item ∈ items, item.isParameter = false) :
    items.filterMap Item.name? = [] := by
  refine List.filterMap_eq_nil_iff.mpr fun item hmem => ?_
  have hitem := h item hmem
  obtain ⟨kind, optional⟩ := item
  cases kind with
  | parameter name multi => cases hitem
  | literal text => rfl
  | suffix text => rfl

/-- A template that starts with a literal has an authorization path, when it is not overridden. -/
theorem exists_authPath {identity : String} {text : String} {items : List Item} (hne : text ≠ "")
    (separator : String) :
    ∃ path, authPath identity ({ kind := .literal text, optional := false } :: items) none
      separator = .ok path := by
  have hparts : ∃ parts, pathParts identity ({ kind := .literal text, optional := false } :: items)
      none = .ok parts := by
    by_cases hidentity : identity = ""
    · subst hidentity
      have hfirst : pathWords "" ({ kind := .literal text, optional := false } :: items) =
          text :: pathWords "" items := by
        simp [pathWords, hne]
      exact ⟨[text], by simp [pathParts, hfirst, PathParts.start, PathParts.toList]; rfl⟩
    · simp [pathParts, PathParts.start, PathParts.toList, hidentity]
      exact ⟨_, rfl⟩
  obtain ⟨parts, hparts⟩ := hparts
  exact ⟨_, by rw [authPath, hparts]; rfl⟩

namespace LiteralTemplate

variable {text : String} {o : Outline (List Char)} (h : LiteralTemplate text o)

include h

theorem map_ofWord (defaults requirements : Bindings) :
    o.map (Part.ofWord defaults requirements) = o.map Part.literal :=
  Outline.map_congr_of_mem fun w hw => by rw [Part.ofWord, h.literal w hw]

theorem segmentTemplate (options : TemplateOptions) : SegmentTemplate options text o where
  spells := h.spells
  spaced := h.spaced
  slots := fun w hw slot hslot => by
    rw [h.literal w hw] at hslot
    cases hslot

/-- Such a template is compiled, when its authorization path is not overridden. -/
theorem exists_compile {options : TemplateOptions} (hpath : Template.overrideOf options = none)
    (identity separator : String) (channel : Channel) :
    ∃ t, (Template.compile identity (.text text) options separator channel).outcome = .ok t := by
  obtain ⟨first, rest, rfl, -⟩ := h.spells.eq_word h.opens
  have htemplate := h.segmentTemplate options
  have hitems : (Outline.word false first rest).items false =
      { kind := .literal (String.ofList first), optional := false } :: rest.items false := by
    rw [Outline.items, Item.ofWord, h.literal first List.mem_cons_self]
    rfl
  have hchecked : Item.ofText text = .ok ((Outline.word false first rest).items false) := by
    have hnames : (((Outline.word false first rest).items false).filterMap Item.name?).Nodup := by
      rw [filterMap_name?_eq_nil fun item => Outline.isParameter_of_mem_items h.literal]
      exact .nil
    rw [items_of_spells h.spells]
    exact Item.check_eq_ok_iff.mpr ⟨rfl, ⟨_, _, hitems, rfl, rfl⟩, hnames⟩
  have hparameters := parametersOf_items htemplate.textual false
  have hpattern := Template.patternOf_eq_ok_iff.mpr
    ⟨_, patternSource_of_spells h.spells h.spaced htemplate.textual, Outline.read_source _,
      (Outline.length_parameters options.defaults false _).symm⟩
  obtain ⟨path, hauth⟩ : ∃ path, Template.pathOf identity separator
      ((Outline.word false first rest).items false) options = .ok path := by
    rw [Template.pathOf, hpath, hitems]
    cases options.fullPath with
    | some path => exact ⟨path, rfl⟩
    | none =>
        have hne : String.ofList first ≠ "" := by
          have hword := h.spells.isWord (List.mem_cons_self : first ∈ _)
          simpa using hword.ne_nil
        obtain ⟨path, hderived⟩ := exists_authPath hne separator
        exact ⟨path, by rw [hderived]; rfl⟩
  exact ⟨_, Template.compile_eq_ok_iff.mpr
    ⟨_, _, _, _, _, rfl, hchecked, hparameters, hpattern, hauth, rfl⟩⟩

end LiteralTemplate

namespace Template

/-- **Every segment can really be left out** of a template of literals in which each segment starts
with a literal. Such a template is compiled, and whichever segments are kept, the message of the
words that are left, joined by single spaces, is recognized without arguments. -/
theorem every_choice_recognized {text : String} {o : Outline (List Char)}
    (htemplate : LiteralTemplate text o) (identity separator : String) (channel : Channel)
    {options : TemplateOptions} (hpath : overrideOf options = none)
    (hpublic : options.inPublic ≠ some false) (hprivate : options.inPrivate ≠ some false) :
    ∃ t, (compile identity (.text text) options separator channel).outcome = .ok t ∧
      ∀ ws ∈ o.choices, ∀ message : Message, message.text.toList = [' '].intercalate ws →
        (t.recognize message).outcome = .ok (.recognized []) := by
  obtain ⟨t, hcompile⟩ := htemplate.exists_compile hpath identity separator channel
  refine ⟨t, hcompile, fun ws hchoice message htext => ?_⟩
  have hmap := htemplate.map_ofWord options.defaults options.requirements
  have hopens : (o.map (.ofWord options.defaults options.requirements)).Opens Part.Required := by
    rw [hmap]
    exact Outline.opens_map_iff.mpr (htemplate.opens.imp fun _ _ => rfl)
  have hsolid : (o.map (.ofWord options.defaults options.requirements)).Solid Part.Required := by
    rw [hmap]
    exact Outline.solid_map_iff.mpr (htemplate.solid.imp fun _ _ => rfl)
  have hexpands : (o.map (.ofWord options.defaults options.requirements)).Expands ws [] := by
    rw [hmap]
    exact Outline.expands_of_mem_choices hchoice
  have hws : ∀ w ∈ ws, IsWord w :=
    fun w hw => htemplate.spells.isWord (Outline.mem_words_of_mem_choices hchoice hw)
  obtain ⟨b, hb, hrecognized⟩ := expansion_is_recognized hcompile
    (htemplate.segmentTemplate options) hopens hsolid hpublic hprivate hexpands hws htext
  have hnone : b = [] := by
    rw [hmap] at hb
    exact List.eq_nil_of_length_eq_zero (by rw [hb.length_eq, Outline.groups_map_literal])
  rw [hrecognized, hnone]
  rfl

/-- A template with a segment in another, and one behind them. -/
def datesOutline : Outline (List Char) :=
  .word false "list".toList
    (.segment true
      (.word false "all".toList
        (.segment true (.word false "the".toList (.done false))
          (.word true "dates".toList (.done false))))
      (.segment true (.word false "now".toList (.done false)) (.done false)))

/-- The choice of the outer segment alone is recognized. -/
theorem every_choice_recognized_dates :
    LiteralTemplate "list [all [the] dates] [now]" datesOutline ∧
      ["list".toList, "all".toList, "dates".toList] ∈ datesOutline.choices ∧
      ∃ t, (compile "hall" (.text "list [all [the] dates] [now]") {}).outcome = .ok t ∧
        (t.recognize { text := "list all dates" }).outcome = .ok (.recognized []) := by
  have htemplate : LiteralTemplate "list [all [the] dates] [now]" datesOutline :=
    ⟨by decide, by decide, by decide, trivial, ⟨trivial, ⟨trivial, trivial, trivial⟩, trivial,
      trivial, trivial⟩⟩
  have hchoice : ["list".toList, "all".toList, "dates".toList] ∈ datesOutline.choices := by decide
  have hpath : overrideOf {} = none := rfl
  obtain ⟨t, hcompile, hall⟩ :=
    every_choice_recognized htemplate "hall" "::" .template hpath nofun nofun
  exact ⟨htemplate, hchoice, t, hcompile, hall _ hchoice { text := "list all dates" } (by decide)⟩

/-- A template with a segment in which a segment comes first. -/
def nestedOutline : Outline (List Char) :=
  .word false ['w']
    (.segment true
      (.segment false (.word false ['a'] (.done false)) (.word true ['b'] (.done false)))
      (.done false))

/-- **A choice that is not recognized**: the outer segment is kept, and the inner one, with which it
starts, is left out. -/
theorem nested_choice_not_recognized :
    nestedOutline.Spells "w [[a] b]" ∧ nestedOutline.Spaced true ∧
      (∀ w ∈ nestedOutline.words, Slot.ofWord? w = none) ∧
      [['w'], ['b']] ∈ nestedOutline.choices ∧
      ∃ t, (compile "hall" (.text "w [[a] b]") {}).outcome = .ok t ∧
        (t.recognize { text := "w b" }).outcome = .ok (.rejected .noMatch) := by
  refine ⟨by decide, by decide, by decide, by decide, ?_⟩
  have hrun : ((compile "hall" (.text "w [[a] b]") {}).outcome.bind fun t =>
      (t.recognize { text := "w b" }).outcome.mapError fun _ => default) =
        .ok (.rejected .noMatch) := rfl
  obtain ⟨t, hcompile, hrecognize⟩ := Except.bind_eq_ok_iff.mp hrun
  exact ⟨t, hcompile, Except.mapError_eq_ok_iff.mp hrecognize⟩

end Template

end Switchboard
