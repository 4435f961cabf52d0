import Switchboard.Proofs.Template.Outline

/-!
# One Group for Each Parameter

The items of a template and its pattern come from two passes over the lexemes that know nothing of
each other. This module shows that they agree, whatever the brackets, the blanks, the suffixes and
the texts of the requirements are. What a pattern says from left to right, with the optional groups
and the blanks left aside, is a list of *leaves*: single characters and groups that capture
(`Pattern.Expr.leaves`). The leaves of a template's pattern are those of its items in order
(`leavesOf`): a literal and a suffix stand for their characters, and the i-th parameter for the i-th
group, which holds what the parameter may be bound to.

The induction is on the outline of a template. Neighbours need not be spaced here, so the two flags
of `lexemesSource` can come out of a segment with any values. No part of a pattern text depends on
them but for the blanks that it asks for, and these have no leaves. The induction therefore speaks
of all flags, and says of the text only what it `Yields`.

## Main results

* `exists_lexemesSource_yields`: the pattern text of an outline yields the leaves of its items.
* `Template.groups_are_parameters`: the pattern of a template that has items.
-/

namespace Switchboard

open Pattern

namespace Pattern

/-! ### Leaves -/

/-- A single character, or a group with what it holds. -/
inductive Leaf where
  | char (c : Char)
  | group (index : Nat) (body : Expr)
deriving DecidableEq, Repr

/-- The single characters and the groups of an expression, from left to right. -/
def Expr.leaves : Expr → List Leaf
  | .set { items := [.single c], negated := false, .. } => [.char c]
  | .seq first second => first.leaves ++ second.leaves
  | .alt first second => first.leaves ++ second.leaves
  | .group index body => [.group index body]
  | .rep body _ _ _ => body.leaves
  | _ => []

/-- The leaves of pieces. -/
def Piece.leaves (pieces : List Piece) : List Leaf := pieces.flatMap fun piece => piece.expr.leaves

@[simp] theorem Piece.leaves_nil : Piece.leaves [] = [] := rfl

theorem Piece.leaves_append (pieces more : List Piece) :
    Piece.leaves (pieces ++ more) = Piece.leaves pieces ++ Piece.leaves more :=
  List.flatMap_append

/-- The leaves of a sequence are those of its pieces. -/
theorem Piece.leaves_sequence (pieces : List Piece) :
    (Piece.sequence pieces).leaves = Piece.leaves pieces := by
  rw [Piece.sequence]
  induction pieces with
  | nil => rfl
  | cons piece pieces ih =>
      cases pieces with
      | nil => simp [Expr.seqAll, Piece.leaves]
      | cons next pieces =>
          rw [List.map_cons, List.map_cons] at *
          rw [Expr.seqAll, Expr.leaves, ih]
          · rfl
          · simp

/-- A repetition has the leaves of what it repeats. -/
theorem Piece.leaves_rep (pieces : List Piece) (min : Nat) (max : Option Nat) (lazy : Bool)
    (kind : PieceKind) :
    Piece.leaves [⟨.rep (Piece.sequence pieces) min max lazy, kind⟩] = Piece.leaves pieces := by
  rw [← Piece.leaves_sequence pieces]
  exact List.append_nil _

/-- The leaves of a literal text are its characters. -/
theorem Piece.leaves_literalPieces (cs : List Char) :
    Piece.leaves (literalPieces cs) = cs.map .char := by
  induction cs with
  | nil => rfl
  | cons c cs ih =>
      rw [List.map_cons, ← ih]
      rfl

end Pattern

/-- Blanks have no leaves. -/
theorem leaves_leadPieces (lead : Bool) : Piece.leaves (leadPieces lead) = [] := by
  cases lead <;> rfl

/-! ### The leaves of items -/

/-- What a parameter may be bound to, as an expression: its requirement, which is a text, or else
one word or the rest of a line. -/
def valueExpr (requirements : Bindings) (name : String) (multi : Bool) : Expr :=
  match requirements.getD name with
  | .text s => .literal s.toList
  | _ => if multi then .rep (.set .notLineFeed) 0 none false else .rep (.set Extent.wordSet) 1 none false

/-- The leaves of items, when so many groups come before them. -/
def leavesOf (requirements : Bindings) : Nat → List Item → List Leaf
  | _, [] => []
  | g, item :: items =>
      match item.kind with
      | .literal text => text.toList.map .char ++ leavesOf requirements g items
      | .suffix text => text.toList.map .char ++ leavesOf requirements g items
      | .parameter name multi =>
          .group (g + 1) (valueExpr requirements name multi) :: leavesOf requirements (g + 1) items

/-- The number of parameters among items. -/
def parameterCount (items : List Item) : Nat := items.countP Item.isParameter

theorem parameterCount_append (items more : List Item) :
    parameterCount (items ++ more) = parameterCount items + parameterCount more := List.countP_append

/-- The leaves of items are those of the first and those of the others. -/
theorem leavesOf_append (requirements : Bindings) (g : Nat) (items more : List Item) :
    leavesOf requirements g (items ++ more) =
      leavesOf requirements g items ++ leavesOf requirements (g + parameterCount items) more := by
  induction items generalizing g with
  | nil => rfl
  | cons item items ih =>
      obtain ⟨kind, optional⟩ := item
      cases kind with
      | literal text => simp [leavesOf, ih, parameterCount, Item.isParameter]
      | suffix text => simp [leavesOf, ih, parameterCount, Item.isParameter]
      | parameter name multi =>
          simp [leavesOf, ih, parameterCount, List.countP_cons, Item.isParameter, Nat.add_assoc,
            Nat.add_comm 1]

/-- The expression of an extent is that of the value. -/
theorem sequence_ofRequirement {requirements : Bindings} {name : String} (multi : Bool) :
    Piece.sequence (Extent.ofRequirement multi (requirements.getD name)).pieces =
      valueExpr requirements name multi := by
  rw [valueExpr]
  cases requirements.getD name with
  | text s => simp [Extent.ofRequirement, Extent.pieces, literalPieces, Piece.sequence, Expr.literal,
      Function.comp_def]
  | _ => cases multi <;> rfl

/-- **The leaves of a word** are those of its items. -/
theorem leaves_pieces_ofWord (defaults requirements : Bindings) (lead optional : Bool) (g : Nat)
    (w : List Char) :
    Piece.leaves ((Part.ofWord defaults requirements w).pieces lead g) =
      leavesOf requirements g (Item.ofWord optional w) := by
  rw [Part.ofWord, Item.ofWord]
  cases hslot : Slot.ofWord? w with
  | none => simp [Part.pieces, Piece.leaves_append, leaves_leadPieces, Piece.leaves_literalPieces,
      leavesOf]
  | some slot =>
      have hgroup : Piece.leaves (Part.groupPieces lead
          (Extent.ofRequirement slot.multi (requirements.getD (String.ofList slot.name))) g) =
            [.group (g + 1) (valueExpr requirements (String.ofList slot.name) slot.multi)] := by
        rw [Part.groupPieces, Piece.leaves_append, leaves_leadPieces, sequence_ofRequirement]
        rfl
      have hsuffix : leavesOf requirements (g + 1) (if slot.suffix.isEmpty then []
          else [{ kind := .suffix (String.ofList slot.suffix), optional }]) =
            slot.suffix.map .char := by
        cases slot.suffix <;> simp [leavesOf]
      simp only [Part.pieces, leavesOf, hsuffix, Piece.leaves_append, Piece.leaves_literalPieces]
      cases defaults.has (String.ofList slot.name) with
      | false => simp [hgroup]
      | true => simp [Piece.leaves_rep, hgroup]

/-- A word has a group exactly when it is a parameter. -/
theorem groups_ofWord (defaults requirements : Bindings) (optional : Bool) (w : List Char) :
    (Part.ofWord defaults requirements w).groups = parameterCount (Item.ofWord optional w) := by
  rw [Part.ofWord, Item.ofWord]
  cases Slot.ofWord? w with
  | none => rfl
  | some slot =>
      cases slot.suffix <;> simp [Part.groups, parameterCount, List.countP_cons, Item.isParameter]

/-! ### What a pattern text says -/

/-- A pattern text says these items: it can follow any other text, it has a group for each of the
parameters, and its leaves are those of the items, however many groups come before it. -/
def Says (requirements : Bindings) (source : List Char) (items : List Item) : Prop :=
  source.head? ≠ some '?' ∧ ∃ tokens pieces,
    Reads source tokens ∧ Pushes tokens pieces (parameterCount items) ∧
      ∀ g, Piece.leaves (pieces g) = leavesOf requirements g items

theorem says_nil (requirements : Bindings) : Says requirements [] [] :=
  ⟨by simp, [], fun _ => [], reads_nil, pushes_nil, fun _ => rfl⟩

/-- Texts that follow each other say their items one after the other. -/
theorem Says.append {requirements : Bindings} {first second : List Char} {items more : List Item}
    (h₁ : Says requirements first items) (h₂ : Says requirements second more) :
    Says requirements (first ++ second) (items ++ more) := by
  obtain ⟨hhead₁, tokens₁, pieces₁, hreads₁, hpushes₁, hleaves₁⟩ := h₁
  obtain ⟨hhead₂, tokens₂, pieces₂, hreads₂, hpushes₂, hleaves₂⟩ := h₂
  have hpushes := hpushes₁.append hpushes₂
  simp only [parameterCount, ← List.countP_append] at hpushes
  refine ⟨head?_append_ne hhead₁ hhead₂, _, _, hreads₁.append hreads₂ hhead₂, hpushes, ?_⟩
  intro g
  rw [Piece.leaves_append, hleaves₁, hleaves₂, leavesOf_append, parameterCount]

/-- Blanks say nothing. -/
theorem says_lead (requirements : Bindings) (lead : Bool) :
    Says requirements (leadSource lead) [] :=
  ⟨head?_leadSource lead, _, _, reads_lead lead, pushes_lead lead,
    fun _ => leaves_leadPieces lead⟩

/-- A word says its items, with or without blanks in front of it. -/
theorem says_ofWord (defaults requirements : Bindings) (lead optional : Bool) (w : List Char) :
    Says requirements ((Part.ofWord defaults requirements w).source lead)
      (Item.ofWord optional w) := by
  have hpushes := (Part.ofWord defaults requirements w).pushes lead
  rw [groups_ofWord defaults requirements optional w] at hpushes
  exact ⟨Part.head?_source _ lead, _, _, Part.reads _ lead, hpushes,
    fun g => leaves_pieces_ofWord defaults requirements lead optional g w⟩

/-- A segment says what it holds, as an optional group. -/
theorem Says.segment {requirements : Bindings} {source : List Char} {items : List Item}
    (h : Says requirements source items) :
    Says requirements ("(?:".toList ++ source ++ ")?".toList) items := by
  obtain ⟨hhead, tokens, pieces, hreads, hpushes, hleaves⟩ := h
  have hgroup := (reads_openPlain.append hreads hhead).append reads_closeOptional (by decide)
  have hoptional := hpushes.plain.quantifier 0 (some 1) false
  have htokens : [Token.openPlain {}] ++ tokens ++ [.close, .quantifier 0 (some 1) false] =
      .openPlain {} :: tokens ++ [.close] ++ [.quantifier 0 (some 1) false] := by simp
  rw [htokens] at hgroup
  refine ⟨by simp, _, _, hgroup, hoptional, ?_⟩
  intro g
  rw [Piece.leaves_rep, hleaves]

/-- **The pattern text of an outline**, whatever the flags are with which it is read, stands in
front of that of the lexemes behind it, and it says the items of the outline. -/
theorem exists_says_lexemesSource {defaults requirements : Bindings} {o : Outline (List Char)}
    (htextual : Textual requirements o.words) (optional space glued : Bool) (tail : List Lexeme) :
    ∃ source space' glued',
      lexemesSource defaults requirements space glued (o.lexemes ++ tail) =
        (lexemesSource defaults requirements space' glued' tail).map (source ++ ·) ∧
      Says requirements source (o.items optional) := by
  induction o generalizing optional space glued tail with
  | done gap =>
      refine ⟨[], if gap then !glued else space, glued, ?_, says_nil requirements⟩
      rw [Outline.lexemes, lexemesSource_gap]
      cases lexemesSource defaults requirements _ glued tail <;> rfl
  | word gap w rest ih =>
      let lead := if gap then !glued else space
      have hword : wordSource defaults requirements (leadSource lead) w = _ :=
        Part.wordSource_eq_ok (htextual w List.mem_cons_self) lead
      obtain ⟨source, space', glued', hnext, hsays⟩ := ih
        (fun v hv => htextual v (List.mem_cons_of_mem w hv)) optional false false tail
      refine ⟨_, space', glued', ?_,
        (says_ofWord defaults requirements lead optional w).append hsays⟩
      rw [Outline.lexemes, List.append_assoc, lexemesSource_gap, List.cons_append, lexemesSource,
        ← leadSource, hword, hnext]
      cases lexemesSource defaults requirements space' glued' tail with
      | error e => rfl
      | ok more => exact congrArg Except.ok (List.append_assoc _ _ _).symm
  | segment gap body rest ihbody ihrest =>
      let lead := if gap then !glued else space
      obtain ⟨inner, space₁, glued₁, hinner, hbody⟩ := ihbody
        (fun v hv => htextual v (List.mem_append_left _ hv)) true false lead
        (.closing :: (rest.lexemes ++ tail))
      obtain ⟨source, space', glued', hnext, hrest⟩ := ihrest
        (fun v hv => htextual v (List.mem_append_right _ hv)) optional space₁ false tail
      refine ⟨_, space', glued', ?_, ((says_lead requirements lead).append hbody).segment.append hrest⟩
      rw [Outline.lexemes, List.append_assoc, lexemesSource_gap, List.cons_append,
        List.append_assoc, List.cons_append, lexemesSource, hinner, lexemesSource, hnext]
      simp only [Except.map_map]
      congr 1
      funext more
      simp [leadSource, lead]

/-! ### The pattern of a template -/

/-- A text that says items is the inside of a pattern with their groups and their leaves. -/
theorem Says.exists_read {requirements : Bindings} {source : List Char} {items : List Item}
    (h : Says requirements source items) :
    ∃ pattern, Pattern.read (String.ofList ('^' :: source ++ ['$'])) lineModes = .ok pattern ∧
      pattern.groups = parameterCount items ∧
      pattern.expr.leaves = leavesOf requirements 0 items := by
  obtain ⟨hhead, tokens, pieces, hreads, hpushes, hleaves⟩ := h
  have hread := read_eq_ok
    (reads_caret.append (hreads.append reads_dollar (by decide)) (head?_append_ne hhead (by decide)))
    (pushes_caret.append (hpushes.append pushes_dollar))
  refine ⟨_, hread, by simp, ?_⟩
  rw [Piece.leaves_sequence, Piece.leaves_append, Piece.leaves_append, hleaves]
  exact List.append_nil _

/-- Where no requirement is a pattern, none that is looked up is. -/
theorem isTextual_getD {requirements : Bindings} (h : ∀ entry ∈ requirements, entry.2.IsTextual)
    (name : String) : (requirements.getD name).IsTextual := by
  rw [Bindings.getD, Bindings.get?]
  cases hlookup : requirements.lookup name with
  | none => exact .inl rfl
  | some rule =>
      obtain ⟨before, after, rfl, -⟩ := List.lookup_eq_some_iff.mp hlookup
      exact h (name, rule) (List.mem_append_right _ List.mem_cons_self)

theorem textual_of_isTextual {requirements : Bindings}
    (h : ∀ entry ∈ requirements, entry.2.IsTextual) (ws : List (List Char)) :
    Textual requirements ws :=
  fun _ _ slot _ => isTextual_getD h (String.ofList slot.name)

/-- **The pattern of a template that has items** can be read, and it says the items. -/
theorem exists_pattern_of_ofText {text : String} {items : List Item}
    (hitems : Item.ofText text = .ok items) {requirements : Bindings}
    (htextual : ∀ entry ∈ requirements, entry.2.IsTextual) (defaults : Bindings) :
    ∃ source pattern, patternSource text defaults requirements = .ok source ∧
      Pattern.read (String.ofList source) lineModes = .ok pattern ∧
      pattern.groups = parameterCount items ∧
      pattern.expr.leaves = leavesOf requirements 0 items := by
  obtain ⟨o, hspells⟩ := Outline.exists_spells_of_ofText hitems
  rw [items_of_spells hspells] at hitems
  obtain ⟨rfl, -⟩ := eq_cons_of_check hitems
  obtain ⟨source, space, glued, hsource, hsays⟩ :=
    @exists_says_lexemesSource defaults requirements o
      (textual_of_isTextual htextual _) false false false []
  obtain ⟨pattern, hread, hgroups, hleaves⟩ := hsays.exists_read
  refine ⟨_, pattern, ?_, hread, hgroups, hleaves⟩
  rw [List.append_nil, ← hspells, lexemesSource_map_bare, lexemesSource] at hsource
  rw [patternSource, hsource]
  simp [Except.map]

/-! ### Compiling -/

/-- The parameters of items without patterns can be made, and there are as many as among the
items. -/
theorem exists_parametersOf {options : TemplateOptions}
    (htextual : ∀ entry ∈ options.requirements, entry.2.IsTextual) (items : List Item) :
    ∃ parameters, (Template.parametersOf options items).outcome = .ok parameters ∧
      parameters.length = parameterCount items := by
  induction items with
  | nil => exact ⟨[], rfl, rfl⟩
  | cons item items ih =>
      obtain ⟨parameters, hrest, hlength⟩ := ih
      obtain ⟨kind, optional⟩ := item
      cases kind with
      | literal text => exact ⟨parameters, (parametersOf_cons_other rfl items).trans hrest, hlength⟩
      | suffix text => exact ⟨parameters, (parametersOf_cons_other rfl items).trans hrest, hlength⟩
      | parameter name multi =>
          refine ⟨_, parametersOf_cons_parameter (isTextual_getD htextual name) hrest multi
            optional, ?_⟩
          rw [List.length_cons, hlength, parameterCount, parameterCount,
            List.countP_cons_of_pos rfl]

namespace Template

/-- When items, parameters and pattern are there, compiling depends on the path alone. -/
theorem outcome_compile {text : String} {items : List Item} (hitems : Item.ofText text = .ok items)
    {options : TemplateOptions} {parameters : List Parameter}
    (hparameters : (parametersOf options items).outcome = .ok parameters) {pattern : Pattern}
    (hpattern : patternOf text options parameters = .ok pattern) (identity separator : String)
    (channel : Channel) :
    (compile identity (.text text) options separator channel).outcome =
      (pathOf identity separator items options).map fun path =>
        assembled text items parameters pattern path options channel := by
  have hvalue : Item.ofValue (.text text) = .ok (text, items) := ofValue_eq_ok_iff.mpr ⟨rfl, hitems⟩
  cases hpath : pathOf identity separator items options with
  | ok path =>
      exact compile_eq_ok_iff.mpr
        ⟨text, items, parameters, pattern, path, rfl, hitems, hparameters, hpattern, hpath, rfl⟩
  | error e =>
      simp only [compile, Attempt.outcome_bind, Attempt.outcome_ofExcept, Attempt.outcome_adapt,
        Attempt.outcome_lift, hvalue, hparameters, Except.mapError, hpattern, hpath, Except.ok_bind,
        Except.error_bind, Except.map]

/-- **Each parameter has its group.** Take a template that has items, any defaults, and requirements
of which none is a pattern. The pattern text of the template can be read. The pattern has as many
groups as there are parameters, and read from left to right it is the items: their literal texts and
suffixes, and for the i-th parameter the i-th group, with what the parameter may be bound to. So
compiling fails exactly where no path can be derived, and with that error. -/
theorem groups_are_parameters {text : String} {items : List Item}
    (hitems : Item.ofText text = .ok items) {options : TemplateOptions}
    (htextual : ∀ entry ∈ options.requirements, entry.2.IsTextual) :
    (∃ source pattern, patternSource text options.defaults options.requirements = .ok source ∧
      Pattern.read (String.ofList source) { multiline := true } = .ok pattern ∧
      pattern.groups = parameterCount items ∧
      pattern.expr.leaves = leavesOf options.requirements 0 items) ∧
    ∀ (identity separator : String) (channel : Channel) (e : CompileError),
      (compile identity (.text text) options separator channel).outcome = .error e ↔
        pathOf identity separator items options = .error e := by
  obtain ⟨source, pattern, hsource, hread, hgroups, hleaves⟩ :=
    exists_pattern_of_ofText hitems htextual options.defaults
  refine ⟨⟨source, pattern, hsource, hread, hgroups, hleaves⟩, ?_⟩
  intro identity separator channel e
  obtain ⟨parameters, hparameters, hlength⟩ := exists_parametersOf htextual items
  have hpattern : patternOf text options parameters = .ok pattern :=
    patternOf_eq_ok_iff.mpr ⟨source, hsource, hread, hgroups.trans hlength.symm⟩
  rw [outcome_compile hitems hparameters hpattern]
  cases pathOf identity separator items options <;> simp [Except.map]

/-- A template with brackets that touch each other and the words around them. -/
def walkText : String := "go[:way[*rest ]]now [:n?]"

/-- Its first parameter must be a text with special characters, and its last the empty text. -/
def walkOptions : TemplateOptions where
  defaults := [("n", .int 5)]
  requirements := [("way", .text "a+(b"), ("rest", .null), ("n", .text "")]

/-- What the template says from left to right. -/
def walkLeaves : List Leaf :=
  [.char 'g', .char 'o', .group 1 (.literal "a+(b".toList),
    .group 2 (.rep (.set .notLineFeed) 0 none false), .char 'n', .char 'o', .char 'w',
    .group 3 .empty, .char '?']

/-- The pattern of the walk has the three groups of its parameters, and the template is compiled. -/
theorem groups_are_parameters_walk :
    ∃ items, Item.ofText walkText = .ok items ∧
      (∃ source pattern,
        patternSource walkText walkOptions.defaults walkOptions.requirements = .ok source ∧
          Pattern.read (String.ofList source) { multiline := true } = .ok pattern ∧
          pattern.groups = 3 ∧ pattern.expr.leaves = walkLeaves) ∧
      ∀ e, (compile "hall" (.text walkText) walkOptions).outcome ≠ .error e := by
  obtain ⟨items, hitems, hcount, hleaves, hpath⟩ : ∃ items, Item.ofText walkText = .ok items ∧
      parameterCount items = 3 ∧ leavesOf walkOptions.requirements 0 items = walkLeaves ∧
        pathOf "hall" "::" items walkOptions = .ok "hall::go" := ⟨_, rfl, rfl, rfl, rfl⟩
  have htextual : ∀ entry ∈ walkOptions.requirements, entry.2.IsTextual := by
    simp [walkOptions, Value.IsTextual]
  obtain ⟨⟨source, pattern, hsource, hread, hgroups, hsays⟩, hcompile⟩ :=
    groups_are_parameters hitems htextual
  refine ⟨items, hitems, ⟨source, pattern, hsource, hread, hgroups.trans hcount,
    hsays.trans hleaves⟩, ?_⟩
  intro e he
  rw [(hcompile "hall" "::" .template e).mp he] at hpath
  cases hpath

end Template

end Switchboard
