import Switchboard.Proofs.Template.Outline

/-!
# Blanks in a Template

Blanks stand at certain places of a template, and there the pattern asks for blanks, so where they stand
matters. How many of them there are, and which, does not. Reading the items passes over a run of blanks
(`ofLexemes_map_bare`), and the pattern text only notes that there was one (`lexemesSource_map_bare`). Two
texts with the same lexemes up to the runs of blanks (`SameLexemes`) are therefore compiled to the same
template, save for the text itself (`SameLexemes.compile_eq_ok`), and this text has no part in recognizing a
message (`Template.recognize_withText`).

## Main results

* `Template.amount_of_blanks_irrelevant`: what two templates share that differ in the runs of blanks only.
-/

namespace Switchboard

/-- The two template texts have the same lexemes, where all runs of blanks count as the same. -/
def SameLexemes (text other : String) : Prop :=
  (Lexeme.ofText text).map Lexeme.bare = (Lexeme.ofText other).map Lexeme.bare

instance (text other : String) : Decidable (SameLexemes text other) :=
  inferInstanceAs (Decidable (_ = _))

theorem SameLexemes.symm {text other : String} (h : SameLexemes text other) : SameLexemes other text :=
  Eq.symm h

/-! ### The text of a template -/

namespace Template

/-- The same template under another text. -/
def withText (t : Template) (text : String) : Template := { t with text }

theorem bindAll_withText (t : Template) (text : String) (ps : List Parameter)
    (matched : List (Option String)) : (t.withText text).bindAll ps matched = t.bindAll ps matched := by
  induction ps generalizing matched with
  | nil => rfl
  | cons p ps ih =>
      cases matched with
      | nil => rfl
      | cons m more =>
          rw [bindAll, bindAll, ih]
          rfl

/-- The text of a template has no part in recognizing a message. -/
theorem recognize_withText (t : Template) (text : String) (message : Message) :
    (t.withText text).recognize message = t.recognize message := by
  unfold recognize
  simp only [bindAll_withText]
  rfl

end Template

/-! ### Reading and compiling -/

namespace SameLexemes

variable {text other : String}

/-- The items are the same, or the same is wrong with both texts. -/
theorem ofText_eq (h : SameLexemes text other) : Item.ofText other = Item.ofText text := by
  have hitems : Item.ofLexemes 0 (Lexeme.ofText other) = Item.ofLexemes 0 (Lexeme.ofText text) := by
    rw [← ofLexemes_map_bare, ← h, ofLexemes_map_bare]
  rw [Item.ofText, Item.ofText, hitems]

/-- The pattern texts are the same, or the same is wrong with the requirements of both. -/
theorem patternSource_eq (h : SameLexemes text other) (defaults requirements : Bindings) :
    patternSource other defaults requirements = patternSource text defaults requirements := by
  have hsource : lexemesSource defaults requirements false false (Lexeme.ofText other) =
      lexemesSource defaults requirements false false (Lexeme.ofText text) := by
    rw [← lexemesSource_map_bare, ← h, lexemesSource_map_bare]
  rw [patternSource, patternSource, hsource]

/-- **One template under two texts.** Where one of the texts is compiled, the other is compiled to the
same template, which has the other text. -/
theorem compile_eq_ok (h : SameLexemes text other) {identity separator : String}
    {options : TemplateOptions} {channel : Channel} {t : Template}
    (ht : (Template.compile identity (.text text) options separator channel).outcome = .ok t) :
    (Template.compile identity (.text other) options separator channel).outcome =
      .ok (t.withText other) := by
  obtain ⟨_, items, parameters, pattern, path, htext, hitems, hparameters, hpattern, hpath, rfl⟩ :=
    Template.compile_eq_ok_iff.mp ht
  obtain rfl := Value.text.inj htext
  obtain ⟨source, hsource, hread, hgroups⟩ := Template.patternOf_eq_ok_iff.mp hpattern
  refine Template.compile_eq_ok_iff.mpr ⟨other, items, parameters, pattern, path, rfl, ?_, hparameters,
    Template.patternOf_eq_ok_iff.mpr ⟨source, ?_, hread, hgroups⟩, hpath, rfl⟩
  · rw [h.ofText_eq, hitems]
  · rw [h.patternSource_eq, hsource]

end SameLexemes

namespace Template

/-- **The amount of blanks in a template is irrelevant.** Two texts that differ only in their runs of blanks, at
the ends and inside, have the same items or the same fault. Their pattern texts are the same for all
defaults and requirements. With the same options one of them is compiled exactly when the other is, and
then both have the same parameters, action and path, and say the same of every message. -/
theorem amount_of_blanks_irrelevant {text other : String} (h : SameLexemes text other) :
    Item.ofText other = Item.ofText text ∧
      (∀ defaults requirements,
        patternSource other defaults requirements = patternSource text defaults requirements) ∧
      ∀ identity separator options channel,
        ((∃ u, (compile identity (.text other) options separator channel).outcome = .ok u) ↔
          ∃ t, (compile identity (.text text) options separator channel).outcome = .ok t) ∧
        ∀ t u, (compile identity (.text text) options separator channel).outcome = .ok t →
          (compile identity (.text other) options separator channel).outcome = .ok u →
          u.parameters = t.parameters ∧ u.action = t.action ∧ u.path = t.path ∧
            ∀ message, u.recognize message = t.recognize message := by
  refine ⟨h.ofText_eq, h.patternSource_eq, fun identity separator options channel => ⟨?_, ?_⟩⟩
  · exact ⟨fun ⟨u, hu⟩ => ⟨_, h.symm.compile_eq_ok hu⟩, fun ⟨t, ht⟩ => ⟨_, h.compile_eq_ok ht⟩⟩
  · intro t u ht hu
    obtain rfl : t.withText other = u := Except.ok.inj ((h.compile_eq_ok ht).symm.trans hu)
    exact ⟨rfl, rfl, rfl, recognize_withText t other⟩

/-- A template with single spaces. -/
def evenText : String := "karma [for] :key"

/-- The same template with a tab, a line feed and a blank that does not break lines. -/
def unevenText : String := "\tkarma\n[for] \u00a0:key "

/-- However its words are set apart, the template takes the same word for the key. -/
theorem amount_of_blanks_irrelevant_karma :
    SameLexemes evenText unevenText ∧
      ∃ t u, (compile "karma" (.text evenText) {}).outcome = .ok t ∧
        (compile "karma" (.text unevenText) {}).outcome = .ok u ∧ u.path = "karma" ∧
        (u.recognize { text := "karma for bob" }).outcome =
          .ok (.recognized [("key", .value (.text "bob"))]) := by
  have hsame : SameLexemes evenText unevenText := by decide
  obtain ⟨t, ht, hpath, hbob⟩ : ∃ t, (compile "karma" (.text evenText) {}).outcome = .ok t ∧
      t.path = "karma" ∧ (t.recognize { text := "karma for bob" }).outcome =
        .ok (.recognized [("key", .value (.text "bob"))]) := ⟨_, rfl, rfl, rfl⟩
  obtain ⟨-, -, hcompiled⟩ := amount_of_blanks_irrelevant hsame
  obtain ⟨hiff, hshared⟩ := hcompiled "karma" "::" {} .template
  obtain ⟨u, hu⟩ := hiff.mpr ⟨t, ht⟩
  obtain ⟨-, -, hpaths, hrecognize⟩ := hshared t u ht hu
  exact ⟨hsame, t, u, ht, hu, hpaths.trans hpath, by rw [hrecognize, hbob]⟩

end Template

end Switchboard
