import Switchboard.Proofs.Pattern.Embedding
import Switchboard.Proofs.Template.Recognition

/-!
# A Pattern as a Requirement

A parameter may come with a pattern that its value has to match. The pattern is turned into a fragment,
which becomes the group of the parameter in the pattern of the template. Here the template has one word
and such a parameter, and it is asked about messages of this word and another one.

The template takes the first way through its pattern only. It is enough that there is a way for which
the value takes the rest of the message, since the group is followed by the end of the line and all
other ways fail there.

## Main results

* `Template.recognizes_iff_fullMatch`: the template recognizes the value exactly when the pattern
  matches all of it.
-/

namespace Switchboard

open Pattern

/-! ### The ways of the template -/

/-- The expressions of the pattern of a template of a word and a parameter. -/
def valueExprs (e : Expr) : List Expr :=
  [.anchor .lineStart, .set (.only 'w'), blankRun, .group 1 e, .anchor .lineEnd]

/-- The place behind the first word of a message and one blank. -/
def valueStart (word : List Char) : State := { before := margin, after := word }

theorem near_valueStart (word : List Char) : Near word (.start word) (valueStart word) :=
  ⟨rfl, rfl, rfl⟩

/-- The first word and the blank are passed in one way. -/
theorem waysAll_valueExprs (e : Expr) {word : List Char} (hword : IsWord word) :
    waysAll (valueExprs e) (.start ('w' :: ' ' :: word)) =
      waysAll [.group 1 e, .anchor .lineEnd] (valueStart word) := by
  have hanchor : (Expr.anchor .lineStart).ways (.start ('w' :: ' ' :: word)) =
      [.start ('w' :: ' ' :: word)] := rfl
  have hfirst : (Expr.set (.only 'w')).ways (.start ('w' :: ' ' :: word)) =
      [{ before := ['w'], after := ' ' :: word }] := by
    simp [Expr.ways, State.start, State.advance]
  have hblank : blankRun.ways { before := ['w'], after := ' ' :: word } = [valueStart word] := by
    have hrun : (' ' :: word).takeWhile blankSet.contains = [' '] := by
      rw [contains_blankSet]
      exact @takeWhile_append_of_not_starts isBlank [' '] word (by simpa using isBlank_space)
        (by simpa using hword.not_starts_blank [])
    rw [blankRun, Expr.ways_plus_set, hrun]
    rfl
  rw [valueExprs, waysAll, hanchor, List.flatMap_singleton, waysAll, hfirst, List.flatMap_singleton,
    waysAll, hblank, List.flatMap_singleton]

theorem isLine_of_isWord {word : List Char} (h : IsWord word) : IsLine word := by
  refine ⟨h.ne_nil, fun hmem => ?_⟩
  have := h.nonblank _ hmem
  exact absurd this (by decide +kernel)

/-- Behind the value only the end of the message is accepted. -/
theorem mem_waysAll_value_iff (e : Expr) {word : List Char} (hword : IsWord word) {st : State} :
    st ∈ waysAll [.group 1 e, .anchor .lineEnd] (valueStart word) ↔
      ∃ last ∈ e.ways (valueStart word), last.after = [] ∧ st = last.capture 1 (valueStart word) := by
  have hends : ∀ last ∈ e.ways (valueStart word),
      Anchor.lineEnd.holds (last.capture 1 (valueStart word)) = true ↔ last.after = [] := by
    intro last hlast
    obtain ⟨read, hread, -⟩ := Expr.leads_of_mem_ways hlast
    have hline : '\n' ∉ last.after := fun hmem =>
      (isLine_of_isWord hword).no_feed (by
        change '\n' ∈ (valueStart word).after
        rw [hread]
        exact List.mem_append_right read hmem)
    rw [Anchor.EndsLine.holds_eq (.inl rfl) (show '\n' ∉ (last.capture 1 _).after from hline)]
    exact List.isEmpty_iff
  simp only [waysAll, List.mem_flatMap, Expr.ways, List.mem_map]
  constructor
  · rintro ⟨_, ⟨last, hlast, rfl⟩, mid, hmid, hst⟩
    obtain rfl := List.mem_singleton.mp hst
    split at hmid
    · rename_i hholds
      exact ⟨last, hlast, (hends last hlast).mp hholds, List.mem_singleton.mp hmid⟩
    · cases hmid
  · rintro ⟨last, hlast, hafter, rfl⟩
    refine ⟨_, ⟨last, hlast, rfl⟩, _, ?_, List.mem_singleton_self _⟩
    rw [if_pos ((hends last hlast).mpr hafter)]
    exact List.mem_singleton_self _

/-- **The first way of the template** takes all of the message exactly when the value has a way that
takes all of the word. -/
theorem exists_whole_valueExprs_iff (e : Expr) {word : List Char} (hword : IsWord word) :
    (∃ captures, Whole (waysAll (valueExprs e) (.start ('w' :: ' ' :: word))) captures) ↔
      ∃ last ∈ e.ways (valueStart word), last.after = [] := by
  rw [waysAll_valueExprs e hword]
  constructor
  · rintro ⟨captures, st, hhead, -, -⟩
    obtain ⟨last, hlast, hafter, -⟩ :=
      (mem_waysAll_value_iff e hword).mp (List.mem_of_mem_head? hhead)
    exact ⟨last, hlast, hafter⟩
  · rintro ⟨last, hlast, hafter⟩
    -- the first way may be another one, but whatever it is, it takes all of the message
    have hmem := (mem_waysAll_value_iff e hword).mpr ⟨last, hlast, hafter, rfl⟩
    obtain ⟨st, hhead⟩ := Option.isSome_iff_exists.mp
      (List.isSome_head?.mpr (List.ne_nil_of_mem hmem))
    obtain ⟨first, -, hfirst, rfl⟩ :=
      (mem_waysAll_value_iff e hword).mp (List.mem_of_mem_head? hhead)
    exact ⟨_, _, hhead, hfirst, rfl⟩

/-- A pattern matches a whole text when one of its ways takes it. -/
theorem isSome_fullMatch_iff (p : Pattern) (text : String) :
    (p.fullMatch text).isSome ↔ ∃ last ∈ p.expr.ways (.start text.toList), last.after = [] := by
  rw [Pattern.fullMatch, Expr.fullMatch, Expr.matchAt_eq, Option.isSome_map, List.find?_isSome]
  simp [State.start]

/-! ### The template -/

/-- The options of a template with a pattern for its parameter. -/
def valueOptions (p : Pattern) : TemplateOptions := { requirements := [("p", .pattern p)] }

/-- The items of the template. -/
def valueItems : List Item :=
  [{ kind := .literal "w", optional := false }, { kind := .parameter "p" false, optional := false }]

/-- The parameter of the template. -/
def valueParameter (p : Pattern) : Parameter where
  name := "p"
  collector := if p.hasCaptures then some { pattern := p } else none

theorem ofText_value : Item.ofText "w :p" = .ok valueItems := by rfl

theorem parametersOf_value (p : Pattern) :
    (Template.parametersOf (valueOptions p) valueItems).outcome = .ok [valueParameter p] := by
  rfl

/-- The pattern text of the template, from the fragment of the pattern. -/
def valueSourceOf (text : List Char) : List Char :=
  ['^'] ++ (literal ['w'] ++ (leadSource true ++ ('(' :: text ++ [')'] ++ ['$'])))

theorem patternSource_value {p : Pattern} {text : List Char} (h : p.fragment = some text) :
    patternSource "w :p" (valueOptions p).defaults (valueOptions p).requirements =
      .ok (valueSourceOf text) := by
  have hlexemes : Lexeme.ofText "w :p" = [.word ['w'], .blank [' '], .word [':', 'p']] := by rfl
  have hfirst : Slot.ofWord? ['w'] = none := rfl
  have hslot : Slot.ofWord? [':', 'p'] = some { multi := false, name := ['p'], suffix := [] } := by
    decide +kernel
  have hvalue : valueSource (valueOptions p).requirements
      { multi := false, name := ['p'], suffix := [] } = .ok text := by
    change requirementFragment (.pattern p) (String.ofList ['p']) = .ok text
    rw [requirementFragment, patternFragment, h]
  have hword : wordSource (valueOptions p).defaults (valueOptions p).requirements blanksSource
      [':', 'p'] = .ok (blanksSource ++ '(' :: text ++ [')']) := by
    rw [wordSource, hslot]
    simp only [hvalue]
    exact congrArg Except.ok (List.append_nil _)
  have hparameter : lexemesSource (valueOptions p).defaults (valueOptions p).requirements true false
      [.word [':', 'p']] = .ok (blanksSource ++ '(' :: text ++ [')']) := by
    rw [lexemesSource, if_pos rfl, hword]
    exact congrArg Except.ok (List.append_nil _)
  have hbody : lexemesSource (valueOptions p).defaults (valueOptions p).requirements false false
      [.word ['w'], .blank [' '], .word [':', 'p']] =
        .ok (literal ['w'] ++ (blanksSource ++ '(' :: text ++ [')'])) := by
    rw [lexemesSource, lexemesSource, wordSource, hfirst]
    simp only [Bool.not_false, hparameter]
    rfl
  rw [patternSource, hlexemes, hbody]
  simp [Except.map, valueSourceOf, leadSource]

/-- Whatever the identity, the template has an authorization path. -/
theorem exists_path_value (identity separator : String) (p : Pattern) :
    ∃ path, Template.pathOf identity separator valueItems (valueOptions p) = .ok path := by
  have hparts : ∃ parts, pathParts identity valueItems none = .ok parts := by
    by_cases hidentity : "w" = identity
    · subst hidentity
      exact ⟨["w"], rfl⟩
    · have hwords : pathWords identity valueItems = ["w"] := by
        simp [pathWords, valueItems, hidentity]
      cases hempty : identity.isEmpty with
      | true => exact ⟨["w"], by simp [pathParts, hwords, PathParts.start, hempty]; rfl⟩
      | false => exact ⟨[identity, "w"], by simp [pathParts, hwords, PathParts.start, hempty]; rfl⟩
  obtain ⟨parts, hparts⟩ := hparts
  refine ⟨String.intercalate separator parts, ?_⟩
  change (authPath identity valueItems none separator).mapError _ = _
  rw [authPath, hparts]
  rfl

/-- The pattern of the template is read, when its group is. -/
theorem exists_read_value {text : List Char} {tokens : List Token} {Fills : Expr → Prop}
    (hreads : Reads ('(' :: text ++ [')']) tokens)
    (hrun : ∀ (b : Assembly) (spots : List Spot), b.level.modes = lineModes →
      spots.map (·.token) = tokens →
      ∃ e widths, b.run spots = .ok (b.grow [⟨.group (b.groups + 1) e, .item⟩] 1 widths) ∧ Fills e) :
    ∃ pattern e, Pattern.read (String.ofList (valueSourceOf text)) lineModes = .ok pattern ∧
      pattern.expr = .seqAll (valueExprs e) ∧ pattern.groups = 1 ∧ Fills e := by
  have hsource : Reads (valueSourceOf text)
      ([.caret] ++ (['w'].map .char ++ (leadTokens true ++ (tokens ++ [.dollar])))) :=
    reads_caret.append ((reads_literal ['w']).append ((reads_lead true).append
      (hreads.append reads_dollar (by simp)) (by simp))
      (head?_append_ne (head?_leadSource true) (by simp)))
      (head?_append_ne (head?_literal ['w']) (head?_append_ne (head?_leadSource true) (by simp)))
  have hfront := pushes_caret.append ((pushes_literal ['w']).append (pushes_lead true))
  obtain ⟨front, back, hscan, hfrontSpots, hback⟩ := List.map_eq_append_iff.mp
    (show (scan false (valueSourceOf text)).map (·.token) =
      ([.caret] ++ (['w'].map .char ++ leadTokens true)) ++ (tokens ++ [.dollar]) by
        rw [hsource.scan]; simp)
  obtain ⟨group, last, rfl, hgroup, hlast⟩ := List.map_eq_append_iff.mp hback
  obtain ⟨widths₁, hrun₁⟩ := hfront (.start lineModes) front rfl hfrontSpots
  let filled := (Assembly.start lineModes).grow
    [⟨.anchor .lineStart, .anchor⟩, ⟨.set (.only 'w'), .item⟩, ⟨blankRun, .repetition⟩] 0 widths₁
  obtain ⟨e, widths₂, hrun₂, he⟩ := hrun filled group rfl hgroup
  obtain ⟨widths₃, hrun₃⟩ :=
    pushes_dollar (filled.grow [⟨.group (filled.groups + 1) e, .item⟩] 1 widths₂) last rfl hlast
  have hrun := Assembly.run_append_eq_ok_iff.mpr
    ⟨filled, hrun₁, Assembly.run_append_eq_ok_iff.mpr ⟨_, hrun₂, hrun₃⟩⟩
  rw [← hscan] at hrun
  exact ⟨_, e, read_eq_ok_iff.mpr ⟨_, by rwa [String.toList_ofList], rfl, rfl, rfl⟩, rfl, rfl, he⟩

namespace Template

/-- A message is recognized by a sound template that refuses none, when the first way through its
pattern takes all of it. -/
theorem exists_recognized_iff {t : Template} (h : t.Sound) {message : Message}
    (hrefusal : t.refusal? message.isPrivate = none) :
    (∃ arguments, (t.recognize message).outcome = .ok (.recognized arguments)) ↔
      ∃ captures, Whole (t.pattern.expr.ways (.start message.text.toList)) captures := by
  simp only [recognize_eq_recognized_iff, hrefusal, true_and, ← exists_search_iff_whole]
  constructor
  · rintro ⟨arguments, found, hfound, -⟩
    exact ⟨found.captures, found, hfound, rfl⟩
  · rintro ⟨-, found, hfound, -⟩
    have hlength : t.parameters.length ≤ (t.matchedTexts found).length :=
      Nat.le_of_eq (h.groups_eq.symm.trans (t.length_matchedTexts found).symm)
    obtain ⟨arguments, harguments⟩ := t.bindAll_ok h.inRange hlength
    exact ⟨arguments, found, hfound, harguments⟩

/-- **A pattern means the same as a requirement.** Take a pattern whose text can be embedded: behind
the modes and the caret at its start nothing asks for the start of the text, and its comments are
quiet. A template of a word and a parameter with this pattern is compiled. Behind the word it
recognizes a word exactly when the pattern by itself matches all of it. -/
theorem recognizes_iff_fullMatch {source : String} {modes : Modes} {p : Pattern}
    (hread : Pattern.read source modes = .ok p) (h : Embeddable modes.verbose source.toList)
    (identity separator : String) (channel : Channel) :
    ∃ t, (compile identity (.text "w :p") { requirements := [("p", .pattern p)] } separator
        channel).outcome = .ok t ∧
      ∀ (message : Message) (word : String), IsWord word.toList → message.text = "w " ++ word →
        ((∃ arguments, (t.recognize message).outcome = .ok (.recognized arguments)) ↔
          (p.fullMatch word).isSome) := by
  obtain ⟨text, tokens, hfragment, hreads, hrun⟩ := exists_embedding hread h
  obtain ⟨pattern, e, hpattern, hexpr, hgroups, he⟩ := exists_read_value hreads hrun
  obtain ⟨path, hpath⟩ := exists_path_value identity separator p
  have hcompile : (compile identity (.text "w :p") (valueOptions p) separator channel).outcome =
      .ok (assembled "w :p" valueItems [valueParameter p] pattern path (valueOptions p) channel) :=
    compile_eq_ok_iff.mpr ⟨"w :p", valueItems, [valueParameter p], pattern, path, rfl,
      ofText_value, parametersOf_value p,
      patternOf_eq_ok_iff.mpr ⟨_, patternSource_value hfragment, hpattern, hgroups⟩, hpath, rfl⟩
  refine ⟨_, hcompile, fun message word hword hmessage => ?_⟩
  have htext : message.text.toList = 'w' :: ' ' :: word.toList := by
    rw [hmessage, String.toList_append]
    rfl
  rw [exists_recognized_iff (sound_of_compile hcompile) rfl, isSome_fullMatch_iff,
    he word.toList (valueStart word.toList) (isLine_of_isWord hword) (near_valueStart _), htext,
    ← exists_whole_valueExprs_iff e hword]
  change (∃ captures, Whole (pattern.expr.ways _) captures) ↔ _
  rw [hexpr]
  simp only [Expr.ways_seqAll]

/-- A pattern with modes, both anchors, a name, a class with a parenthesis, and a comment. -/
def sizeSource : String := "(?ix)^(?P<size>b | [(]+) # a size\n$"

theorem recognizes_iff_fullMatch_size :
    ∃ p, Pattern.read sizeSource {} = .ok p ∧ Embeddable false sizeSource.toList ∧
      ∃ t, (compile "hall" (.text "w :p") { requirements := [("p", .pattern p)] } "::"
          .template).outcome = .ok t ∧
        ∀ (message : Message) (word : String), IsWord word.toList → message.text = "w " ++ word →
          ((∃ arguments, (t.recognize message).outcome = .ok (.recognized arguments)) ↔
            (p.fullMatch word).isSome) := by
  obtain ⟨p, hread⟩ : ∃ p, Pattern.read sizeSource {} = .ok p := ⟨_, rfl⟩
  have h : Embeddable false sizeSource.toList := by decide
  exact ⟨p, hread, h, recognizes_iff_fullMatch hread h "hall" "::" .template⟩

/-- The condition is needed. A comment at the end of a pattern takes the parenthesis behind it, so
that there is no template; and a caret in front of a later alternative stays, so that the template
does not recognize what the pattern matches. -/
theorem requirement_changes_meaning :
    (∃ p, Pattern.read "b # c" { verbose := true } = .ok p ∧ (p.fullMatch "b").isSome ∧
      ∀ t, (compile "hall" (.text "w :p") { requirements := [("p", .pattern p)] }).outcome ≠ .ok t) ∧
    ∃ p t, Pattern.read "a|^b" {} = .ok p ∧ (p.fullMatch "b").isSome ∧
      (compile "hall" (.text "w :p") { requirements := [("p", .pattern p)] }).outcome = .ok t ∧
      ∀ arguments, (t.recognize { text := "w b" }).outcome ≠ .ok (.recognized arguments) := by
  constructor
  · refine ⟨_, rfl, rfl, fun t h => ?_⟩
    have hfails := congrArg Except.isOk h
    cases hfails
  · refine ⟨_, _, rfl, rfl, rfl, fun arguments h => ?_⟩
    have hrejected := congrArg (fun outcome => (outcome.toOption.bind Recognition.failure?).isSome) h
    cases hrejected

end Template

end Switchboard
