import Switchboard.Proofs.Template.Grammar
import Switchboard.Proofs.Template.Lexemes
import Switchboard.Proofs.Template.Parts

/-!
# Templates of Words Alone

When a template has no brackets, the runs of its lexemes are exactly its words: the blanks between
them say only that something else comes, and those at its ends say nothing. Its items, its
parameters and its pattern are therefore all read off one list of parts (`partsOf`), and the first
part is a literal.

## Main results

* `lexemesSource_scan`: the pattern text of such a template.
* `items_of_ofText`, `parametersOf_flatMap_ofWord`: its items and its parameters.
* `madeOfParts_of_compile`: what compiling makes of its parts.
-/

namespace Switchboard

open Pattern

/-- A text without brackets. -/
def BracketFree (cs : List Char) : Prop := ∀ c ∈ cs, c ≠ '[' ∧ c ≠ ']'

instance : DecidablePred BracketFree :=
  fun cs => List.decidableBAll (fun c => c ≠ '[' ∧ c ≠ ']') cs

theorem BracketFree.left {cs ds : List Char} (h : BracketFree (cs ++ ds)) : BracketFree cs :=
  fun c hc => h c (List.mem_append_left ds hc)

theorem BracketFree.tail {c : Char} {cs : List Char} (h : BracketFree (c :: cs)) :
    BracketFree cs :=
  fun d hd => h d (List.mem_cons_of_mem c hd)

theorem BracketFree.right {cs ds : List Char} (h : BracketFree (cs ++ ds)) : BracketFree ds :=
  fun c hc => h c (List.mem_append_right cs hc)

/-! ### Lexemes -/

namespace Lexeme

/-- A blank in front of a text joins the blanks there, or is a lexeme of its own. -/
theorem scan_cons_blank {c : Char} (hc : isBlank c = true) (cs : List Char) :
    (∃ run ls, scan cs = .blank run :: ls ∧ scan (c :: cs) = .blank (c :: run) :: ls) ∨
      scan (c :: cs) = .blank [c] :: scan cs := by
  have hin : inWord c = false := by simp [inWord, nonblank, hc]
  rw [scan_cons]
  generalize scan cs = ls
  generalize hmore : cons c ls = more
  cases puts_iff.mpr hmore with
  | opening | closing => exact absurd hc (by decide)
  | moreBlank run rest => exact .inl ⟨run, rest, rfl, rfl⟩
  | newBlank => exact .inr rfl
  | moreWord text rest hword | newWord hword =>
      rw [hin] at hword
      cases hword

/-- A word in front of a text at which no word goes on is one lexeme. -/
theorem scan_word_append {w rest : List Char} (hw : IsWord w) (hfree : BracketFree w)
    (hrest : ¬ Starts nonblank rest) : scan (w ++ rest) = .word w :: scan rest := by
  have hrun : ∀ c ∈ w, inWord c = true := by
    intro c hc
    simp [inWord, hw.nonblank c hc, hfree c hc]
  rw [scan_append]
  refine foldr_cons_run (fun c run ls => .moreWord run ls) (fun c ls => .newWord) hw.ne_nil hrun ?_
  intro text ls hscan
  have htext : IsRun text := whole_of_scan hscan
  exact hrest (starts_of_scan hscan htext.isWord.nonblank)

end Lexeme

/-- The items of a text without brackets are those of its words. -/
theorem ofLexemes_scan {cs : List Char} (hfree : BracketFree cs) :
    Item.ofLexemes 0 (Lexeme.scan cs) = .ok ((words cs).flatMap (Item.ofWord false)) := by
  induction cs using words_induction with
  | nil => rfl
  | blank c cs hc ih =>
      rw [words_cons_blank cs hc, ← ih hfree.tail]
      rcases Lexeme.scan_cons_blank hc cs with ⟨run, ls, hscan, hscan'⟩ | hscan'
      · rw [hscan, hscan']
        rfl
      · rw [hscan']
        rfl
  | word w rest hw hrest ih =>
      rw [Lexeme.scan_word_append hw hfree.left hrest, words_word_append hw hrest,
        Item.ofLexemes, ih hfree.right]
      rfl

/-- Requirements for the parameters among the words that are no patterns. -/
def Textual (requirements : Bindings) (ws : List (List Char)) : Prop :=
  ∀ w ∈ ws, ∀ slot, Slot.ofWord? w = some slot →
    (requirements.getD (String.ofList slot.name)).IsTextual

/-- **The pattern text of a template without brackets** is that of its parts. -/
theorem lexemesSource_scan {defaults requirements : Bindings} {cs : List Char}
    (hfree : BracketFree cs) (htextual : Textual requirements (words cs)) (space : Bool) :
    lexemesSource defaults requirements space false (Lexeme.scan cs) =
      .ok (partsSource (space || cs.head?.any isBlank)
        ((words cs).map (.ofWord defaults requirements))) := by
  induction cs using words_induction generalizing space with
  | nil => rfl
  | blank c cs hc ih =>
      have hnext := ih hfree.tail (by rwa [words_cons_blank cs hc] at htextual) true
      rw [Bool.true_or] at hnext
      rw [words_cons_blank cs hc, List.head?_cons, Option.any_some, hc, Bool.or_true, ← hnext]
      rcases Lexeme.scan_cons_blank hc cs with ⟨run, ls, hscan, hscan'⟩ | hscan'
      · rw [hscan, hscan']
        rfl
      · rw [hscan']
        rfl
  | word w rest hw hrest ih =>
      rw [words_word_append hw hrest] at htextual
      have hword : wordSource defaults requirements (leadSource space) w =
          .ok ((Part.ofWord defaults requirements w).source space) :=
        Part.wordSource_eq_ok (htextual w List.mem_cons_self) space
      have hnext := ih hfree.right (fun v hv => htextual v (List.mem_cons_of_mem w hv)) false
      have hlead : partsSource (rest.head?.any isBlank)
          ((words rest).map (.ofWord defaults requirements)) =
            partsSource true ((words rest).map (.ofWord defaults requirements)) := by
        cases rest with
        | nil => rfl
        | cons d rest =>
            have hd : isBlank d = true := by simpa [nonblank] using hrest
            rw [List.head?_cons, Option.any_some, hd]
      have hhead : (w ++ rest).head?.any isBlank = false := by
        obtain ⟨c, w, rfl⟩ := List.exists_cons_of_ne_nil hw.ne_nil
        simpa [nonblank] using hw.nonblank c List.mem_cons_self
      rw [Lexeme.scan_word_append hw hfree.left hrest, words_word_append hw hrest, lexemesSource,
        hhead, Bool.or_false]
      rw [Bool.false_or, hlead] at hnext
      rw [leadSource] at hword
      rw [hword, hnext]
      rfl

/-! ### Compiling -/

/-- The parts of a template. -/
def partsOf (options : TemplateOptions) (text : String) : List Part :=
  (words text.toList).map (.ofWord options.defaults options.requirements)

/-- A template without brackets whose requirements are no patterns. -/
structure Wordwise (options : TemplateOptions) (text : String) : Prop where
  bracketFree : BracketFree text.toList
  textual : Textual options.requirements (words text.toList)

theorem bracketFree_trim {cs : List Char} (h : BracketFree cs) : BracketFree (trim cs) := by
  intro c hc
  exact h c ((List.dropWhile_sublist isBlank).subset ((trim_isPrefix_dropWhile cs).subset hc))

/-- The pattern text of a template of words alone. -/
theorem patternSource_eq_ok {options : TemplateOptions} {text : String}
    (h : Wordwise options text) :
    patternSource text options.defaults options.requirements =
      .ok ('^' :: partsSource false (partsOf options text) ++ ['$']) := by
  have hstart : (trim text.toList).head?.any isBlank = false := by
    have hnot := not_starts_trim text.toList
    cases htrim : trim text.toList with
    | nil => rfl
    | cons c cs => simpa [htrim] using hnot
  rw [patternSource, Lexeme.ofText, lexemesSource_scan (bracketFree_trim h.bracketFree)
    (by rw [words_trim]; exact h.textual), hstart, words_trim]
  rfl

/-- Items that are accepted start with a literal outside of brackets. -/
theorem eq_cons_of_check {items checked : List Item} (h : Item.check items = .ok checked) :
    checked = items ∧ ∃ first rest, items = first :: rest ∧ first.isParameter = false := by
  obtain ⟨rfl, ⟨first, rest, rfl, hparameter, -⟩, -⟩ := Item.check_eq_ok_iff.mp h
  exact ⟨rfl, first, rest, rfl, hparameter⟩

/-- **The items of a template of words alone** are those of its words. The first word is no
parameter. -/
theorem items_of_ofText {text : String} (hfree : BracketFree text.toList) {items : List Item}
    (h : Item.ofText text = .ok items) :
    items = (words text.toList).flatMap (Item.ofWord false) ∧
      ∃ first rest, words text.toList = first :: rest ∧ Slot.ofWord? first = none := by
  rw [Item.ofText, Lexeme.ofText, ofLexemes_scan (bracketFree_trim hfree), words_trim] at h
  obtain ⟨rfl, item, more, hitems, hparameter⟩ := eq_cons_of_check h
  refine ⟨rfl, ?_⟩
  cases hwords : words text.toList with
  | nil => simp [hwords] at hitems
  | cons first rest =>
      refine ⟨first, rest, rfl, ?_⟩
      cases hslot : Slot.ofWord? first with
      | none => rfl
      | some slot =>
          simp only [hwords, List.flatMap_cons, Item.ofWord, hslot, List.cons_append,
            List.cons.injEq] at hitems
          obtain ⟨rfl, -⟩ := hitems
          cases hparameter

/-- The parameter that a part makes. -/
def Part.parameter? (defaults : Bindings) : Part → Option Parameter
  | .literal _ => none
  | .parameter name extent optional _ =>
      some { name, multi := extent.multi, optional, default := defaults.getD name }

/-- A requirement that is no pattern asks for no collector. -/
theorem ofRequirement_of_isTextual {rule : Value} (h : rule.IsTextual) :
    (Collector.ofRequirement rule).outcome = .ok none := by
  obtain rfl | ⟨s, rfl⟩ := h <;> rfl

theorem multi_ofRequirement (multi : Bool) (rule : Value) :
    (Extent.ofRequirement multi rule).multi = multi := by
  cases rule <;> cases multi <;> rfl

/-- An item that is no parameter makes none. -/
theorem parametersOf_cons_other {options : TemplateOptions} {item : Item}
    (hitem : item.isParameter = false) (items : List Item) :
    (Template.parametersOf options (item :: items)).outcome =
      (Template.parametersOf options items).outcome := by
  obtain ⟨kind, optional⟩ := item
  cases kind with
  | parameter name multi => cases hitem
  | _ =>
      simp only [Template.parametersOf, Template.parameter?, Attempt.outcome_bind,
        Attempt.outcome_pure]
      cases (Template.parametersOf options items).outcome <;> rfl

/-- An item that is a parameter makes one in front of the others. -/
theorem parametersOf_cons_parameter {options : TemplateOptions} {name : String}
    (hname : (options.requirements.getD name).IsTextual) {items : List Item}
    {parameters : List Parameter}
    (hrest : (Template.parametersOf options items).outcome = .ok parameters)
    (multi optional : Bool) :
    (Template.parametersOf options ({ kind := .parameter name multi, optional } ::
        items)).outcome =
      .ok ({ name, multi, optional := optional || options.defaults.has name,
             default := options.defaults.getD name } :: parameters) := by
  simp only [Template.parametersOf, Template.parameter?, Attempt.outcome_bind,
    Attempt.outcome_pure, ofRequirement_of_isTextual hname, hrest]
  rfl

/-- The parameters of words are those of their parts. -/
theorem parametersOf_flatMap_ofWord {options : TemplateOptions} {ws : List (List Char)}
    (h : Textual options.requirements ws) :
    (Template.parametersOf options (ws.flatMap (Item.ofWord false))).outcome =
      .ok ((ws.map (.ofWord options.defaults options.requirements)).filterMap
        (Part.parameter? options.defaults)) := by
  induction ws with
  | nil => rfl
  | cons w ws ih =>
      have hrest := ih fun v hv => h v (List.mem_cons_of_mem w hv)
      rw [List.flatMap_cons, List.map_cons, Part.ofWord, Item.ofWord]
      cases hslot : Slot.ofWord? w with
      | none => exact (parametersOf_cons_other rfl _).trans hrest
      | some slot =>
          have hname := h w List.mem_cons_self slot hslot
          simp only [List.filterMap_cons, Part.parameter?, multi_ofRequirement, List.cons_append]
          refine parametersOf_cons_parameter hname ?_ slot.multi false
          cases slot.suffix with
          | nil => exact hrest
          | cons c suffix => exact (parametersOf_cons_other rfl _).trans hrest

/-! ### What compiling makes of the parts -/

/-- A template that has been made from parts: it starts with a literal, it has the parameters and
the pattern of its parts, and the options that it was given. -/
structure MadeOfParts (t : Template) (options : TemplateOptions) (parts : List Part) : Prop where
  starts : ∃ first rest, IsWord first ∧ parts = .literal first :: rest
  parameters_eq : t.parameters = parts.filterMap (Part.parameter? options.defaults)
  expr_eq : t.pattern.expr = .seqAll (patternExprs parts)
  groups_eq : t.pattern.groups = partsGroups parts
  defaults_eq : t.defaults = options.defaults
  inPublic_eq : t.inPublic = options.inPublic
  inPrivate_eq : t.inPrivate = options.inPrivate

/-- **A compiled template of words alone** has been made from the parts that its words are. -/
theorem madeOfParts_of_compile {identity separator text : String} {options : TemplateOptions}
    {channel : Channel} {t : Template} (hwordwise : Wordwise options text)
    (h : (Template.compile identity (.text text) options separator channel).outcome = .ok t) :
    MadeOfParts t options (partsOf options text) := by
  obtain ⟨text', items, parameters, pattern, path, htext, hitems, hparameters, hpattern, -, rfl⟩ :=
    Template.compile_eq_ok_iff.mp h
  obtain rfl := Value.text.inj htext
  obtain ⟨rfl, first, rest, hwords, hfirst⟩ := items_of_ofText hwordwise.bracketFree hitems
  obtain ⟨source, hsource, hread, -⟩ := Template.patternOf_eq_ok_iff.mp hpattern
  obtain rfl := Except.ok.inj ((patternSource_eq_ok hwordwise).symm.trans hsource)
  obtain rfl := Except.ok.inj ((read_partsSource (partsOf options text)).symm.trans hread)
  obtain rfl := Except.ok.inj
    ((parametersOf_flatMap_ofWord hwordwise.textual).symm.trans hparameters)
  refine ⟨⟨first, rest.map (.ofWord options.defaults options.requirements), ?_, ?_⟩, rfl, rfl,
    rfl, rfl, rfl, rfl⟩
  · exact isWord_of_mem_words (hwords ▸ List.mem_cons_self)
  · rw [partsOf, hwords, List.map_cons, Part.ofWord, hfirst]

end Switchboard
