import Switchboard.Proofs.Template.Outline

/-!
# Blanks at the End of a Segment

Brackets may touch each other and the words around them. Then the two flags of `lexemesSource` come
out of a segment with values that matter: blanks in front of a closing bracket have not been asked
for yet, and are left over for what stands behind the segment. So `a [b ]c` is read as if it were
`a [b] c`.

This is all that there is to it. Each outline has a settled form, in which the blanks that are left
over at the end of a segment stand behind it (`Outline.settled`). The pattern text of the template is
that of the settled form, which has the same words in the same segments. Hence every
template that has items is described by an outline, spaced or not.

## Main results

* `lexemesSource_settled`: the pattern text of an outline is that of its settled form.
* `exists_describes_of_ofText`: each template with items is described by an outline.
* `exists_describes_of_compile`: and so is each compiled template.
-/

namespace Switchboard

open Pattern

namespace Outline

variable {α : Type}

/-- Whether blanks are left over at the end of a row. `carried` says that some were left over in front
of it, `glued` that the bracket in front of it has taken the blanks there. -/
def leftOver : (carried glued : Bool) → Outline α → Bool
  | carried, glued, done gap => lead (gap || carried) glued
  | _, _, word _ _ rest => rest.leftOver false false
  | carried, glued, segment gap body rest =>
      rest.leftOver (body.leftOver false (lead (gap || carried) glued)) false

/-- The outline with the blanks that are left over at the end of a segment behind the segment. -/
def settled : (carried glued : Bool) → Outline α → Outline α
  | carried, _, done gap => done (gap || carried)
  | carried, _, word gap w rest => word (gap || carried) w (rest.settled false false)
  | carried, glued, segment gap body rest =>
      let opened := lead (gap || carried) glued
      segment (gap || carried) (body.settled false opened)
        (rest.settled (body.leftOver false opened) false)

@[simp] theorem words_settled (o : Outline α) (carried glued : Bool) :
    (o.settled carried glued).words = o.words := by
  induction o generalizing carried glued with
  | done gap => rfl
  | word gap w rest ih => rw [settled, words, words, ih]
  | segment gap body rest ihbody ihrest => rw [settled, words, words, ihbody, ihrest]

@[simp] theorem items_settled (o : Outline (List Char)) (carried glued optional : Bool) :
    (o.settled carried glued).items optional = o.items optional := by
  induction o generalizing carried glued optional with
  | done gap => rfl
  | word gap w rest ih => rw [settled, items, items, ih]
  | segment gap body rest ihbody ihrest => rw [settled, items, items, ihbody, ihrest]

end Outline

/-- The flag for blanks in front of a member of a row. Nothing is carried behind a bracket that has
taken the blanks. -/
theorem space_eq_lead_carried {carried glued : Bool} (h : carried = true → glued = false)
    (gap : Bool) :
    (if gap then !glued else carried) = Outline.lead (gap || carried) glued := by
  cases gap with
  | true => simp [Outline.lead]
  | false => cases carried <;> simp_all [Outline.lead]

/-- **The pattern text of an outline** is that of its settled form, and blanks that are left over at
its end are carried on to the lexemes behind it. -/
theorem lexemesSource_settled (defaults : Bindings) {requirements : Bindings}
    {o : Outline (List Char)} (htextual : Textual requirements o.words) (carried glued : Bool)
    (hcarried : carried = true → glued = false) (tail : List Lexeme) :
    ∃ glued', lexemesSource defaults requirements carried glued (o.lexemes ++ tail) =
      (lexemesSource defaults requirements (o.leftOver carried glued) glued' tail).map
        (((o.settled carried glued).map (.ofWord defaults requirements)).source glued ++ ·) := by
  induction o generalizing carried glued tail with
  | done gap =>
      refine ⟨glued, ?_⟩
      rw [Outline.lexemes, lexemesSource_gap, space_eq_lead_carried hcarried, Outline.leftOver]
      cases lexemesSource defaults requirements _ glued tail <;> rfl
  | word gap w rest ih =>
      let opened := Outline.lead (gap || carried) glued
      have hword : wordSource defaults requirements (leadSource opened) w =
          .ok ((Part.ofWord defaults requirements w).source opened) :=
        Part.wordSource_eq_ok (htextual w List.mem_cons_self) opened
      obtain ⟨glued', hnext⟩ := ih (fun v hv => htextual v (List.mem_cons_of_mem w hv)) false false
        (by simp) tail
      refine ⟨glued', ?_⟩
      rw [Outline.lexemes, List.append_assoc, lexemesSource_gap, space_eq_lead_carried hcarried,
        List.cons_append, lexemesSource, ← leadSource, hword, hnext, Outline.leftOver]
      cases lexemesSource defaults requirements _ glued' tail with
      | error e => rfl
      | ok source => exact congrArg Except.ok (List.append_assoc _ _ _).symm
  | segment gap body rest ihbody ihrest =>
      let opened := Outline.lead (gap || carried) glued
      obtain ⟨glued₁, hinner⟩ := ihbody (fun v hv => htextual v (List.mem_append_left _ hv)) false
        opened (by simp) (.closing :: (rest.lexemes ++ tail))
      obtain ⟨glued', hnext⟩ := ihrest (fun v hv => htextual v (List.mem_append_right _ hv))
        (body.leftOver false opened) false (fun _ => rfl) tail
      refine ⟨glued', ?_⟩
      rw [Outline.lexemes, List.append_assoc, lexemesSource_gap, space_eq_lead_carried hcarried,
        List.cons_append, List.append_assoc, List.cons_append, lexemesSource, hinner, lexemesSource,
        hnext, Outline.leftOver]
      simp only [Except.map_map]
      congr 1
      funext source
      simp [Outline.settled, Outline.map, Outline.source, leadSource, opened, Outline.lead]

/-- **Each template with items is described by an outline.** -/
theorem exists_describes_of_ofText {text : String} {items : List Item}
    (hitems : Item.ofText text = .ok items) : ∃ o : Outline (List Char), o.Describes text := by
  obtain ⟨o, hspells⟩ := Outline.exists_spells_of_ofText hitems
  refine ⟨o.settled false false, ?_, ?_⟩
  · rw [Outline.items_settled]
    exact items_of_spells hspells
  · intro defaults requirements htextual
    rw [Outline.words_settled] at htextual
    obtain ⟨glued, hsource⟩ := lexemesSource_settled defaults htextual false false (by simp) []
    rw [List.append_nil, ← hspells, lexemesSource_map_bare, lexemesSource] at hsource
    rw [patternSource, hsource]
    simp [Except.map]

/-- **Each compiled template** is a text that is described by an outline. -/
theorem exists_describes_of_compile {identity separator : String} {template : Value}
    {options : TemplateOptions} {channel : Channel} {t : Template}
    (h : (Template.compile identity template options separator channel).outcome = .ok t) :
    ∃ text, template = .text text ∧ ∃ o : Outline (List Char), o.Describes text := by
  obtain ⟨text, items, -, -, -, htext, hitems, -⟩ := Template.compile_eq_ok_iff.mp h
  exact ⟨text, htext, exists_describes_of_ofText hitems⟩

end Switchboard
