import Switchboard.Proofs.Pattern.Splice
import Switchboard.Proofs.Template.Groups

/-!
# Templates with Patterns as Requirements

A requirement that holds a pattern makes its fragment the inside of the parameter's group. What the
fragment matches is not looked at here. As tokens it is nested, so whatever it is, the pattern of the
template stays in one piece: the caret, then items without a bar among them, then the dollar. And a
parameter's group comes behind as many groups as there are parameters in front of it
(`Grouped`).

A requirement that is no such thing makes the compiler fail, and so does a pattern whose references
do not find their groups; so all that is said here is about the pattern text, when there is one.

## Main results

* `exists_reads_patternSource`: the tokens of the pattern text of a template.
* `Grouped.exists_exprs`: the pattern of a template ends with the end of a line.
* `Grouped.refersWithin`: what the pattern of a requirement refers to in a template.
-/

namespace Switchboard

open Pattern

/-! ### Requirements that hold a pattern -/

/-- **The pattern text of a value** is the fragment of the pattern that its requirement holds, or that
of an extent, or there is none. -/
theorem valueSource_cases (requirements : Bindings) (slot : Slot) :
    (∃ p, (requirements.getD (String.ofList slot.name)).held? = some p ∧
      valueSource requirements slot = patternFragment p) ∨
    ((requirements.getD (String.ofList slot.name)).held? = none ∧
      ((requirements.getD (String.ofList slot.name)).IsTextual ∨
        ∃ e, valueSource requirements slot = .error (.requirement e))) := by
  rw [valueSource]
  cases hrule : requirements.getD (String.ofList slot.name) with
  | null => exact .inr ⟨rfl, .inl (.inl rfl)⟩
  | _ =>
      exact (requirementFragment_cases _ _).imp_right (And.imp_right (Or.imp_left .inr))

/-! ### The tokens of a value -/

theorem atoms_literal (cs : List Char) : ∀ token ∈ cs.map Token.char, token.IsAtom := by
  intro token htoken
  obtain ⟨c, -, rfl⟩ := List.mem_map.mp htoken
  exact ⟨fun _ => rfl, nofun⟩

theorem atoms_lead (lead : Bool) : ∀ token ∈ leadTokens lead, token.IsAtom := by
  cases lead <;> simp [leadTokens, Token.IsAtom, Token.depth]

theorem atoms_extent (extent : Extent) : ∀ token ∈ extent.tokens, token.IsAtom := by
  cases extent with
  | word | line => simp [Extent.tokens, Token.IsAtom, Token.depth]
  | exactly multi text => exact atoms_literal text

/-- Tokens that the group of a parameter may have inside: they are nested, none of them captures, and
the references of the pattern that the parameter requires are among them. -/
structure Fills (requirements : Bindings) (name : String) (inner : List Token) : Prop where
  nested : Nested true 0 inner 0
  captures : ∀ token ∈ inner, token.isCapture = false
  references : ∀ p, (requirements.getD name).held? = some p →
    ∀ token ∈ p.tokens, token.isReference = true → token ∈ inner

/-- **The group of a parameter** is read as such tokens. -/
theorem exists_reads_value {requirements : Bindings} {slot : Slot} {value : List Char}
    (hvalue : valueSource requirements slot = .ok value)
    (hsplice : ∀ p, (requirements.getD (String.ofList slot.name)).held? = some p → p.Spliceable) :
    ∃ inner, Reads ('(' :: value ++ [')']) (.openCapture none :: inner ++ [.close]) ∧
      Fills requirements (String.ofList slot.name) inner := by
  rcases valueSource_cases requirements slot with ⟨p, hheld, hsource⟩ | ⟨hnone, htextual | ⟨e, herror⟩⟩
  · obtain ⟨text, inner, htext, hreads, hnested, hcaptures, hreferences⟩ :=
      (hsplice p hheld).exists_reads
    rw [hsource, patternFragment, htext] at hvalue
    obtain rfl := Except.ok.inj hvalue
    refine ⟨inner, hreads, hnested, hcaptures, fun q hq => ?_⟩
    obtain rfl := Option.some.inj (hheld.symm.trans hq)
    exact hreferences
  · obtain rfl := Except.ok.inj ((valueSource_eq_ok htextual).symm.trans hvalue)
    let extent := Extent.ofRequirement slot.multi (requirements.getD (String.ofList slot.name))
    have hatoms := atoms_extent extent
    refine ⟨extent.tokens, ?_, .of_atoms hatoms, fun token htoken => (hatoms token htoken).isCapture_eq,
      fun p hp => ?_⟩
    · exact reads_openCapture.append (extent.reads.append reads_close (by decide))
        (head?_append_ne extent.head?_source (by decide))
    · rw [hnone] at hp
      cases hp
  · rw [herror] at hvalue
    cases hvalue

/-! ### The groups of items -/

/-- Tokens that have a group for each parameter among items, and otherwise only stand there: they are
nested, no group has a name, and the group of a parameter comes behind those of the parameters in front
of it. -/
structure Grouped (requirements : Bindings) (items : List Item) (tokens : List Token) : Prop where
  nested : Nested false 0 tokens 0
  count : captureCount tokens = parameterCount items
  unnamed : ∀ token ∈ tokens, ∀ name, token ≠ .openCapture (some name)
  group : ∀ before item after, items = before ++ item :: after → ∀ name, item.name? = some name →
    ∃ front inner back, tokens = front ++ .openCapture none :: (inner ++ back) ∧
      captureCount front = parameterCount before ∧ Fills requirements name inner

namespace Grouped

variable {requirements : Bindings} {items more : List Item} {tokens : List Token}

/-- Tokens without groups, for items without parameters. -/
theorem of_atoms (hitems : ∀ item ∈ items, item.isParameter = false)
    (htokens : ∀ token ∈ tokens, token.IsAtom) : Grouped requirements items tokens where
  nested := .of_atoms htokens
  count := by
    rw [captureCount_eq_zero fun token htoken => (htokens token htoken).isCapture_eq, parameterCount,
      List.countP_eq_zero.mpr fun item hitem => by simp [hitems item hitem]]
  unnamed token htoken name heq := by
    have := (htokens token htoken).isCapture_eq
    rw [heq] at this
    cases this
  group before item after heq name hname := by
    have := hitems item (heq ▸ by simp)
    rw [Item.isParameter] at this
    rw [Item.name?] at hname
    split at hname <;> simp_all

/-- Tokens that follow each other have the groups of the first items and of the others. -/
theorem append {tokens' : List Token} (h₁ : Grouped requirements items tokens)
    (h₂ : Grouped requirements more tokens') : Grouped requirements (items ++ more) (tokens ++ tokens') where
  nested := h₁.nested.append h₂.nested
  count := by rw [captureCount_append, h₁.count, h₂.count, parameterCount_append]
  unnamed := List.forall_mem_append.mpr ⟨h₁.unnamed, h₂.unnamed⟩
  group before item after heq name hname := by
    rcases List.append_eq_append_iff.mp heq with ⟨middle, rfl, hmore⟩ | ⟨middle, hitems, hafter⟩
    · obtain ⟨front, inner, back, rfl, hfront, hinner⟩ := h₂.group middle item after hmore name hname
      refine ⟨tokens ++ front, inner, back, (List.append_assoc _ _ _).symm, ?_, hinner⟩
      rw [captureCount_append, h₁.count, hfront, parameterCount_append]
    · cases middle with
      | nil =>
          obtain ⟨front, inner, back, rfl, hfront, hinner⟩ :=
            h₂.group [] item after hafter.symm name hname
          refine ⟨tokens ++ front, inner, back, (List.append_assoc _ _ _).symm, ?_, hinner⟩
          rw [captureCount_append, h₁.count, hfront, hitems, List.append_nil]
          rfl
      | cons first middle =>
          obtain ⟨rfl, rfl⟩ := List.cons.inj hafter
          obtain ⟨front, inner, back, rfl, hfront, hinner⟩ := h₁.group before item middle hitems name hname
          exact ⟨front, inner, back ++ tokens', by simp, hfront, hinner⟩

/-- Tokens in an optional group have the same groups. -/
theorem optional (h : Grouped requirements items tokens) :
    Grouped requirements items
      (.openPlain {} :: tokens ++ [.close, .quantifier 0 (some 1) false]) where
  nested := by
    have hgroup := @Nested.enclosed _ (.openPlain {}) _ h.nested rfl nofun nofun
    have hquantifier : Nested false 0 [.quantifier 0 (some 1) false] 0 :=
      .of_atoms (by simp [Token.IsAtom, Token.depth])
    simpa using hgroup.append hquantifier
  count := by
    rw [List.cons_append, captureCount_cons, captureCount_append, h.count]
    rfl
  unnamed token htoken name heq := by
    subst heq
    simp only [List.cons_append, List.mem_cons, List.mem_append, reduceCtorEq, List.not_mem_nil,
      or_false, false_or] at htoken
    exact h.unnamed _ htoken name rfl
  group before item after heq name hname := by
    obtain ⟨front, inner, back, rfl, hfront, hinner⟩ := h.group before item after heq name hname
    refine ⟨.openPlain {} :: front, inner, back ++ [.close, .quantifier 0 (some 1) false], by simp, ?_,
      hinner⟩
    rw [captureCount_cons, hfront]
    rfl

/-- The group of a parameter. -/
theorem of_parameter (name : String) (multi optional : Bool) {inner : List Token}
    (h : Fills requirements name inner) :
    Grouped requirements [{ kind := .parameter name multi, optional }]
      (.openCapture none :: inner ++ [.close]) where
  nested := @Nested.enclosed _ (.openCapture none) _ h.nested rfl nofun nofun
  count := by
    rw [List.cons_append, captureCount_cons, captureCount_append, captureCount_eq_zero h.captures]
    rfl
  unnamed token htoken other heq := by
    subst heq
    simp only [List.cons_append, List.mem_cons, List.mem_append, reduceCtorEq, List.not_mem_nil,
      or_false, Token.openCapture.injEq, false_or] at htoken
    exact absurd (h.captures _ htoken) (by simp [Token.isCapture])
  group before other after heq other_name hother := by
    cases before with
    | nil =>
        obtain ⟨rfl, -⟩ := List.cons.inj heq
        obtain rfl := Option.some.inj hother
        exact ⟨[], inner, [.close], by simp, rfl, h⟩
    | cons first before =>
        obtain ⟨-, hnil⟩ := List.cons.inj heq
        cases before <;> cases hnil

end Grouped

/-! ### The tokens of a pattern text -/

/-- Each pattern that a parameter among items requires is of a certain sort. -/
def EachRequired (P : Pattern → Prop) (requirements : Bindings) (items : List Item) : Prop :=
  ∀ item ∈ items, ∀ name, item.name? = some name →
    ∀ p, (requirements.getD name).held? = some p → P p

/-- A pattern text that can follow any other text, and is read as tokens with the groups of items. -/
def Spliced (requirements : Bindings) (source : List Char) (items : List Item) : Prop :=
  source.head? ≠ some '?' ∧ ∃ tokens, Reads source tokens ∧ Grouped requirements items tokens

namespace Spliced

variable {requirements : Bindings} {source more : List Char} {items others : List Item}

theorem nil : Spliced requirements [] [] := ⟨by simp, [], reads_nil, .of_atoms (by simp) (by simp)⟩

theorem append (h₁ : Spliced requirements source items) (h₂ : Spliced requirements more others) :
    Spliced requirements (source ++ more) (items ++ others) := by
  obtain ⟨hhead₁, tokens₁, hreads₁, hgrouped₁⟩ := h₁
  obtain ⟨hhead₂, tokens₂, hreads₂, hgrouped₂⟩ := h₂
  exact ⟨head?_append_ne hhead₁ hhead₂, _, hreads₁.append hreads₂ hhead₂, hgrouped₁.append hgrouped₂⟩

/-- Blanks have no items. -/
theorem lead (lead : Bool) : Spliced requirements (leadSource lead) [] :=
  ⟨head?_leadSource lead, _, reads_lead lead, .of_atoms (by simp) (atoms_lead lead)⟩

/-- A literal text has any items without parameters. -/
theorem literal (cs : List Char) (hitems : ∀ item ∈ items, item.isParameter = false) :
    Spliced requirements (Pattern.literal cs) items :=
  ⟨head?_literal cs, _, reads_literal cs, .of_atoms hitems (atoms_literal cs)⟩

/-- An optional group has the items of what it holds. -/
theorem optional (h : Spliced requirements source items) :
    Spliced requirements ("(?:".toList ++ source ++ ")?".toList) items := by
  obtain ⟨hhead, tokens, hreads, hgrouped⟩ := h
  exact ⟨by simp, _, (reads_openPlain.append hreads hhead).append reads_closeOptional (by decide),
    hgrouped.optional⟩

/-- **A word** has its items, when it has a pattern text. -/
theorem of_wordSource {defaults : Bindings} {lead : Bool} {w : List Char}
    (hsource : wordSource defaults requirements (leadSource lead) w = .ok source) (optional : Bool)
    (hsplice : EachRequired Pattern.Spliceable requirements (Item.ofWord optional w)) :
    Spliced requirements source (Item.ofWord optional w) := by
  rw [wordSource] at hsource
  rw [Item.ofWord] at hsplice ⊢
  cases hslot : Slot.ofWord? w with
  | none =>
      rw [hslot] at hsource
      obtain rfl := Except.ok.inj hsource
      exact (Spliced.lead lead).append (.literal w (by simp [Item.isParameter]))
  | some slot =>
      simp only [hslot] at hsource hsplice ⊢
      obtain ⟨value, hvalue, hsource⟩ := Except.bind_eq_ok_iff.mp hsource
      obtain rfl := Except.ok.inj hsource
      obtain ⟨inner, hreads, hfills⟩ :=
        exists_reads_value hvalue (hsplice _ List.mem_cons_self _ rfl)
      have hgroup : Spliced requirements ('(' :: value ++ [')'])
          [{ kind := .parameter (String.ofList slot.name) slot.multi, optional }] :=
        ⟨by simp, _, hreads, .of_parameter _ _ _ hfills⟩
      have hsuffix : Spliced requirements (Pattern.literal slot.suffix) (if slot.suffix.isEmpty then []
          else [{ kind := .suffix (String.ofList slot.suffix), optional }]) :=
        .literal _ (by split <;> simp [Item.isParameter])
      have hled := (Spliced.lead lead).append hgroup
      rw [List.nil_append, ← List.append_assoc] at hled
      split
      · exact hled.optional.append hsuffix
      · exact hled.append hsuffix

end Spliced

/-- **The pattern text of an outline**, when there is one, has the groups of its items. -/
theorem exists_spliced_lexemesSource {defaults requirements : Bindings} {o : Outline (List Char)}
    {optional space glued : Bool} {tail : List Lexeme} {whole : List Char}
    (hsplice : EachRequired Pattern.Spliceable requirements (o.items optional))
    (h : lexemesSource defaults requirements space glued (o.lexemes ++ tail) = .ok whole) :
    ∃ source more space' glued', whole = source ++ more ∧
      lexemesSource defaults requirements space' glued' tail = .ok more ∧
      Spliced requirements source (o.items optional) := by
  induction o generalizing optional space glued tail whole with
  | done gap =>
      rw [Outline.lexemes, lexemesSource_gap] at h
      exact ⟨[], whole, _, _, rfl, h, .nil⟩
  | word gap w rest ih =>
      obtain ⟨hword, hrest⟩ := List.forall_mem_append.mp hsplice
      rw [Outline.lexemes, List.append_assoc, lexemesSource_gap, List.cons_append, lexemesSource,
        ← leadSource] at h
      obtain ⟨first, hfirst, h⟩ := Except.bind_eq_ok_iff.mp h
      obtain ⟨next, hnext, h⟩ := Except.bind_eq_ok_iff.mp h
      obtain rfl := Except.ok.inj h
      obtain ⟨source, more, space', glued', rfl, hmore, hspliced⟩ := ih hrest hnext
      exact ⟨first ++ source, more, space', glued', (List.append_assoc _ _ _).symm, hmore,
        (Spliced.of_wordSource hfirst optional hword).append hspliced⟩
  | segment gap body rest ihbody ihrest =>
      obtain ⟨hbody, hrest⟩ := List.forall_mem_append.mp hsplice
      rw [Outline.lexemes, List.append_assoc, lexemesSource_gap, List.cons_append, List.append_assoc,
        List.cons_append, lexemesSource, ← leadSource] at h
      obtain ⟨inside, hinside, rfl⟩ := Except.map_eq_ok_iff.mp h
      obtain ⟨inner, next, space₁, glued₁, rfl, hnext, hinner⟩ := ihbody hbody hinside
      rw [lexemesSource] at hnext
      obtain ⟨last, hlast, rfl⟩ := Except.map_eq_ok_iff.mp hnext
      obtain ⟨source, more, space', glued', rfl, hmore, hspliced⟩ := ihrest hrest hlast
      refine ⟨_, more, space', glued', ?_, hmore,
        ((Spliced.lead (if gap then !glued else space)).append hinner).optional.append hspliced⟩
      simp

/-- **The pattern text of a template**, when there is one, has the groups of its items between a caret
and a dollar. -/
theorem exists_reads_patternSource {text : String} {items : List Item}
    (hitems : Item.ofText text = .ok items) {defaults requirements : Bindings}
    (hsplice : EachRequired Pattern.Spliceable requirements items) {source : List Char}
    (h : patternSource text defaults requirements = .ok source) :
    ∃ tokens, Reads source (.caret :: (tokens ++ [.dollar])) ∧ Grouped requirements items tokens := by
  obtain ⟨o, hspells⟩ := Outline.exists_spells_of_ofText hitems
  rw [items_of_spells hspells] at hitems
  obtain ⟨rfl, -⟩ := eq_cons_of_check hitems
  obtain ⟨body, hbody, rfl⟩ := Except.map_eq_ok_iff.mp h
  rw [← lexemesSource_map_bare, hspells, ← List.append_nil o.lexemes] at hbody
  obtain ⟨source, more, space, glued, rfl, hmore, hhead, tokens, hreads, hgrouped⟩ :=
    exists_spliced_lexemesSource hsplice hbody
  obtain rfl := Except.ok.inj hmore
  refine ⟨tokens, ?_, hgrouped⟩
  have hwhole := reads_caret.append (hreads.append reads_dollar (by decide))
    (head?_append_ne hhead (by decide))
  simpa using hwhole

/-! ### The pattern of a template -/

namespace Grouped

variable {requirements : Bindings} {items : List Item} {tokens : List Token}

/-- The tokens between the caret and the dollar leave the pattern in one piece. -/
theorem exists_exprs (h : Grouped requirements items tokens) {source : List Char} {pattern : Pattern}
    (hreads : Reads source (.caret :: (tokens ++ [.dollar])))
    (hread : Pattern.read (String.ofList source) lineModes = .ok pattern) :
    ∃ exprs, pattern.expr = .seqAll (exprs ++ [.anchor .lineEnd]) := by
  obtain ⟨done, hrun, houter, -, rfl⟩ := read_eq_ok_iff.mp hread
  rw [String.toList_ofList] at hrun
  obtain ⟨⟨place, _⟩, rest, hspots, rfl, hrest⟩ := List.map_eq_cons_iff.mp hreads.scan
  obtain ⟨spots, last, rfl, hinner, hlast⟩ := List.map_eq_append_iff.mp hrest
  obtain ⟨place', rfl⟩ := exists_eq_singleton hlast
  change (Assembly.start lineModes).run (scan false source) = _ at hrun
  rw [hspots] at hrun
  obtain ⟨a, hcaret, hmore⟩ := Assembly.run_cons_eq_ok_iff.mp hrun
  obtain ⟨b, hitems, hdollar⟩ := Assembly.run_append_eq_ok_iff.mp hmore
  obtain rfl := Except.ok.inj hcaret
  rw [Assembly.run_singleton] at hdollar
  obtain rfl := Except.ok.inj hdollar
  -- the caret has touched the pattern, and from there on its modes and its alternatives stay
  have htouched : ((Assembly.start lineModes).push (.anchor .lineStart) .anchor).Touched :=
    .inr (.inr (List.cons_ne_nil _ _))
  have hmodes := htouched.modes_root_of_run hitems
  have hearlier := Assembly.earlier_root_of_run (hinner ▸ h.nested) hitems
  rw [@Assembly.root_of_outer_eq_nil b houter] at hmodes hearlier
  have hmultiline : b.level.modes.multiline = true := by
    rw [hmodes]
    rfl
  refine ⟨(b.level.current.map (·.expr)).reverse, ?_⟩
  rw [if_pos hmultiline, Level.expr_eq]
  change Expr.altAll (_ :: b.level.earlier).reverse = _
  rw [hearlier]
  simp [Piece.sequence, Assembly.push, Assembly.root, Assembly.start, Expr.altAll]

/-- **What the pattern of a requirement refers to** in a template that has a pattern: the groups of the
parameters in front of its own. -/
theorem refersWithin (h : Grouped requirements items tokens) {source : List Char} {pattern : Pattern}
    (hreads : Reads source (.caret :: (tokens ++ [.dollar])))
    (hread : Pattern.read (String.ofList source) lineModes = .ok pattern) {before after : List Item}
    {item : Item} (hitems : items = before ++ item :: after) {name : String}
    (hname : item.name? = some name) {p : Pattern} (hheld : (requirements.getD name).held? = some p) :
    ∀ token ∈ p.tokens, token.RefersWithin (parameterCount before) := by
  intro token htoken
  obtain ⟨done, hrun, -, -, -⟩ := read_eq_ok_iff.mp hread
  rw [String.toList_ofList] at hrun
  obtain ⟨front, inner, back, rfl, hfront, hinner⟩ := h.group before item after hitems name hname
  have hunnamed : ∀ token ∈ Token.caret :: (front ++ .openCapture none :: (inner ++ back) ++ [.dollar]),
      ∀ name, token ≠ .openCapture (some name) :=
    List.forall_mem_cons.mpr ⟨nofun, List.forall_mem_append.mpr ⟨h.unnamed, by simp⟩⟩
  have hscan : (scan false source).map (·.token) =
      .caret :: front ++ .openCapture none :: (inner ++ (back ++ [.dollar])) := by
    rw [hreads.scan]
    simp
  have hrefers := Assembly.refersWithin_of_run hrun hscan
    (fun spot hspot => hunnamed _ (hreads.scan ▸ List.mem_map_of_mem hspot)) hinner.nested hinner.captures
  rw [captureCount_cons, hfront] at hrefers
  cases hreference : token.isReference with
  | true => exact hrefers token (hinner.references p hheld token htoken hreference)
  | false => cases token <;> trivial

end Grouped

end Switchboard
