import Mathlib.Data.List.Chain
import Switchboard.Proofs.Template.Wordwise

/-!
# Templates with Optional Segments

A template with brackets is an `Outline`: a row of words and segments, and in each segment a row of
its own. An outline also knows where blanks stand, before a word, before a segment and at the end of
a row, but not how many. The lexemes of a template spell its outline (`Outline.Spells`), and in a
spaced outline blanks stand between all neighbours of a row.

What the compiler makes of a template is read off its outline. The blanks in front of a segment go
into its group, and the bracket that has taken them spares the first lexeme of the segment; this is
all that is left of the two flags of `lexemesSource`, because in a spaced outline the flag that comes
out of a segment is overwritten by the blanks behind it (`lexemesSource_lexemes`).

## Main results

* `lexemesSource_lexemes`: the pattern text of a spaced outline.
* `Outline.reads`, `Outline.pushes`: how it is read.
* `Outline.Describes.madeOfOutline`, `madeOfOutline_of_compile`: what compiling makes of an outline.
-/

namespace Switchboard

open Pattern

/-- A row of words and of segments in brackets, each with whether blanks stand in front of it. -/
inductive Outline (α : Type) where
  /-- The end of the row, and whether blanks stand in front of it. -/
  | done (gap : Bool)
  | word (gap : Bool) (word : α) (rest : Outline α)
  | segment (gap : Bool) (body rest : Outline α)
deriving DecidableEq, Repr

/-- A lexeme, where all runs of blanks count as the same. -/
def Lexeme.bare : Lexeme → Lexeme
  | .blank _ => .blank []
  | l => l

/-- The lexemes of blanks, if there are any. -/
def gapLexemes (gap : Bool) : List Lexeme := if gap then [.blank []] else []

namespace Outline

variable {α β : Type}

/-- The outline with other words. -/
def map (f : α → β) : Outline α → Outline β
  | done gap => done gap
  | word gap w rest => word gap (f w) (rest.map f)
  | segment gap body rest => segment gap (body.map f) (rest.map f)

/-- All words of an outline, those of its segments included. -/
def words : Outline α → List α
  | done _ => []
  | word _ w rest => w :: rest.words
  | segment _ body rest => body.words ++ rest.words

/-- Blanks stand in front of each member of the row and of the rows in its segments, save that the
first of a row may do without. `first` says that the row starts here. -/
def Spaced : (first : Bool) → Outline α → Prop
  | _, done _ => True
  | first, word gap _ rest => (first = false → gap = true) ∧ rest.Spaced false
  | first, segment gap body rest =>
      (first = false → gap = true) ∧ body.Spaced true ∧ rest.Spaced false

/-- The lexemes of an outline. -/
def lexemes : Outline (List Char) → List Lexeme
  | done gap => gapLexemes gap
  | word gap w rest => gapLexemes gap ++ .word w :: rest.lexemes
  | segment gap body rest =>
      gapLexemes gap ++ .opening :: (body.lexemes ++ .closing :: rest.lexemes)

/-- The lexemes of a template text are those of the outline. -/
def Spells (o : Outline (List Char)) (text : String) : Prop :=
  (Lexeme.ofText text).map Lexeme.bare = o.lexemes

instance decidableSpaced : (first : Bool) → (o : Outline α) → Decidable (o.Spaced first)
  | _, done _ => .isTrue trivial
  | first, word gap _ rest =>
      have := decidableSpaced false rest
      inferInstanceAs (Decidable ((first = false → gap = true) ∧ rest.Spaced false))
  | first, segment gap body rest =>
      have := decidableSpaced true body
      have := decidableSpaced false rest
      inferInstanceAs (Decidable ((first = false → gap = true) ∧ body.Spaced true ∧
        rest.Spaced false))

instance (o : Outline (List Char)) (text : String) : Decidable (o.Spells text) :=
  inferInstanceAs (Decidable (_ = _))

theorem Spaced.map {o : Outline α} {first : Bool} (h : o.Spaced first) (f : α → β) :
    (o.map f).Spaced first := by
  induction o generalizing first with
  | done gap => trivial
  | word gap w rest ih => exact ⟨h.1, ih h.2⟩
  | segment gap body rest ihbody ihrest => exact ⟨h.1, ihbody h.2.1, ihrest h.2.2⟩

@[simp] theorem words_map (f : α → β) (o : Outline α) : (o.map f).words = o.words.map f := by
  induction o with
  | done gap => rfl
  | word gap w rest ih => simp [map, words, ih]
  | segment gap body rest ihbody ihrest => simp [map, words, ihbody, ihrest]

/-! ### Words of a template -/

end Outline

/-- What the lexeme of a word holds is a word. -/
theorem Lexeme.isWord_of_mem_scan {cs w : List Char} (h : .word w ∈ Lexeme.scan cs) : IsWord w := by
  have hrun : IsRun w := (Lexeme.maximal_scan cs).whole (.word w) h
  exact hrun.isWord

namespace Outline

theorem mem_lexemes_of_mem_words {o : Outline (List Char)} {w : List Char} (h : w ∈ o.words) :
    .word w ∈ o.lexemes := by
  induction o with
  | done gap => cases h
  | word gap v rest ih =>
      rcases List.mem_cons.mp h with rfl | hlater
      · simp [lexemes]
      · simp [lexemes, ih hlater]
  | segment gap body rest ihbody ihrest =>
      rcases List.mem_append.mp h with hbody | hrest
      · simp [lexemes, ihbody hbody]
      · simp [lexemes, ihrest hrest]

/-- The words of an outline that a template spells are words. -/
theorem Spells.isWord {o : Outline (List Char)} {text : String} (h : o.Spells text)
    {w : List Char} (hw : w ∈ o.words) : IsWord w := by
  have hmem := mem_lexemes_of_mem_words hw
  rw [← h, List.mem_map] at hmem
  obtain ⟨l, hl, hbare⟩ := hmem
  cases l with
  | word text =>
      obtain rfl := Lexeme.word.inj hbare
      exact Lexeme.isWord_of_mem_scan hl
  | blank run => cases hbare
  | opening => cases hbare
  | closing => cases hbare

/-! ### Each template has an outline -/

/-- Blanks stand in front of the row. -/
def afterGap : Outline α → Outline α
  | done _ => done true
  | word _ w rest => word true w rest
  | segment _ body rest => segment true body rest

/-- The lexemes of a row and of those in whose segments it stands, from where each of them goes
on. -/
def rowsLexemes (o : Outline (List Char)) (around : List (Outline (List Char))) : List Lexeme :=
  o.lexemes ++ around.flatMap fun o => .closing :: o.lexemes

/-- Blanks in front of a row, where there have been none. -/
theorem rowsLexemes_afterGap (o : Outline (List Char)) (around : List (Outline (List Char)))
    (h : (rowsLexemes o around).head? ≠ some (.blank [])) :
    rowsLexemes o.afterGap around = .blank [] :: rowsLexemes o around := by
  cases o with
  | done gap =>
      cases gap with
      | false => rfl
      | true => exact absurd rfl h
  | word gap w rest =>
      cases gap with
      | false => rfl
      | true => exact absurd rfl h
  | segment gap body rest =>
      cases gap with
      | false => rfl
      | true => exact absurd rfl h

end Outline

/-- The second lexeme is not of blanks if the first is. -/
def Lexeme.Apart (first second : Lexeme) : Prop := first.bare = .blank [] → second.bare ≠ .blank []

/-- Runs of blanks are as long as they can be. -/
theorem Lexeme.isChain_scan (cs : List Char) : (scan cs).IsChain Lexeme.Apart := by
  refine (maximal_scan cs).parted.imp fun l m hparted hl => ?_
  cases l with
  | blank run =>
      cases m with
      | blank other => exact absurd rfl (hparted other)
      | opening | closing | word => exact nofun
  | opening | closing | word => cases hl

namespace Outline

/-- Lexemes that stand inside so many brackets and close them all spell a row, and what is left of
the rows around it. -/
theorem exists_rows_of_ofLexemes {ls : List Lexeme} (hchain : ls.IsChain Lexeme.Apart) {depth : Nat}
    {items : List Item} (h : Item.ofLexemes depth ls = .ok items) :
    ∃ o around, around.length = depth ∧ ls.map Lexeme.bare = rowsLexemes o around := by
  induction ls generalizing depth items with
  | nil =>
      cases depth with
      | zero => exact ⟨done false, [], rfl, rfl⟩
      | succ depth => cases h
  | cons l ls ih =>
      obtain ⟨hfirst, hls⟩ := List.isChain_cons.mp hchain
      cases l with
      | blank run =>
          rw [Item.ofLexemes] at h
          obtain ⟨o, around, hlength, hrows⟩ := ih hls h
          refine ⟨o.afterGap, around, hlength, ?_⟩
          rw [rowsLexemes_afterGap, List.map_cons, hrows, Lexeme.bare]
          rw [← hrows, List.head?_map]
          intro hblank
          obtain ⟨l, hl, hbare⟩ := Option.map_eq_some_iff.mp hblank
          exact hfirst l hl rfl hbare
      | opening =>
          rw [Item.ofLexemes] at h
          obtain ⟨body, around, hlength, hrows⟩ := ih hls h
          obtain ⟨rest, around, rfl⟩ := List.exists_cons_of_length_eq_add_one hlength
          refine ⟨segment false body rest, around, Nat.succ.inj hlength, ?_⟩
          rw [List.map_cons, hrows]
          simp [rowsLexemes, lexemes, gapLexemes, Lexeme.bare]
      | closing =>
          cases depth with
          | zero => cases h
          | succ depth =>
              rw [Item.ofLexemes] at h
              obtain ⟨rest, around, hlength, hrows⟩ := ih hls h
              refine ⟨done false, rest :: around, congrArg (· + 1) hlength, ?_⟩
              rw [List.map_cons, hrows]
              simp [rowsLexemes, lexemes, gapLexemes, Lexeme.bare]
      | word text =>
          rw [Item.ofLexemes] at h
          obtain ⟨items', hitems, -⟩ := Except.map_eq_ok_iff.mp h
          obtain ⟨o, around, hlength, hrows⟩ := ih hls hitems
          refine ⟨word false text o, around, hlength, ?_⟩
          rw [List.map_cons, hrows]
          simp [rowsLexemes, lexemes, gapLexemes, Lexeme.bare]

/-- **Each template has an outline**, when its brackets are balanced. -/
theorem exists_spells_of_ofText {text : String} {items : List Item}
    (h : Item.ofText text = .ok items) : ∃ o : Outline (List Char), o.Spells text := by
  obtain ⟨items', hitems, -⟩ := Except.bind_eq_ok_iff.mp h
  obtain ⟨o, around, hlength, hrows⟩ := exists_rows_of_ofLexemes (Lexeme.isChain_scan _) hitems
  obtain rfl := List.eq_nil_of_length_eq_zero hlength
  exact ⟨o, hrows.trans (List.append_nil _)⟩

/-! ### The pattern text -/

/-- Whether the pattern asks for blanks in front of a member of the row: blanks stand there, and no
bracket has taken them. -/
def lead (gap glued : Bool) : Bool := gap && !glued

/-- The pattern text of an outline. `glued` says that the bracket in front of it has taken the
blanks. -/
def source : (glued : Bool) → Outline Part → List Char
  | _, done _ => []
  | glued, word gap part rest => part.source (lead gap glued) ++ rest.source false
  | glued, segment gap body rest =>
      "(?:".toList ++ (leadSource (lead gap glued) ++ (body.source (lead gap glued) ++
        (")?".toList ++ rest.source false)))

end Outline

/-- How many blanks there are makes no difference to the pattern text. -/
theorem lexemesSource_map_bare (defaults requirements : Bindings) (space glued : Bool)
    (ls : List Lexeme) :
    lexemesSource defaults requirements space glued (ls.map Lexeme.bare) =
      lexemesSource defaults requirements space glued ls := by
  induction ls generalizing space glued with
  | nil => rfl
  | cons l ls ih => cases l <;> simp only [List.map_cons, Lexeme.bare, lexemesSource, ih]

theorem lexemesSource_gap (defaults requirements : Bindings) (space glued gap : Bool)
    (ls : List Lexeme) :
    lexemesSource defaults requirements space glued (gapLexemes gap ++ ls) =
      lexemesSource defaults requirements (if gap then !glued else space) glued ls := by
  cases gap <;> rfl

/-- Where a member of a spaced row comes, the flag for blanks says whether the pattern asks for
them. -/
theorem space_eq_lead {first space glued gap : Bool} (hspace : first = true → space = false)
    (hgap : first = false → gap = true) :
    (if gap then !glued else space) = Outline.lead gap glued := by
  cases gap with
  | true => rfl
  | false =>
      cases first with
      | true => simp [Outline.lead, hspace rfl]
      | false => cases hgap rfl

/-- **The pattern text of a spaced outline** stands in front of that of the lexemes behind it. The
flags with which these are read do not matter, for blanks or a bracket come next. -/
theorem lexemesSource_lexemes {defaults requirements : Bindings} {o : Outline (List Char)}
    {first : Bool} (hspaced : o.Spaced first) (htextual : Textual requirements o.words)
    (space glued : Bool) (hspace : first = true → space = false)
    (hglued : first = false → glued = false) (tail : List Lexeme) :
    ∃ space' glued', lexemesSource defaults requirements space glued (o.lexemes ++ tail) =
      (lexemesSource defaults requirements space' glued' tail).map
        ((o.map (.ofWord defaults requirements)).source glued ++ ·) := by
  induction o generalizing first space glued tail with
  | done gap =>
      refine ⟨if gap then !glued else space, glued, ?_⟩
      rw [Outline.lexemes, lexemesSource_gap]
      cases lexemesSource defaults requirements _ glued tail <;> rfl
  | word gap w rest ih =>
      obtain ⟨hgap, hrest⟩ := hspaced
      have hword : wordSource defaults requirements (leadSource (Outline.lead gap glued)) w =
          .ok ((Part.ofWord defaults requirements w).source (Outline.lead gap glued)) :=
        Part.wordSource_eq_ok (htextual w List.mem_cons_self) _
      obtain ⟨space', glued', hnext⟩ := ih hrest
        (fun v hv => htextual v (List.mem_cons_of_mem w hv)) false false (by simp) (fun _ => rfl)
        tail
      refine ⟨space', glued', ?_⟩
      rw [Outline.lexemes, List.append_assoc, lexemesSource_gap, space_eq_lead hspace hgap,
        List.cons_append, lexemesSource, ← leadSource, hword, hnext]
      cases lexemesSource defaults requirements space' glued' tail with
      | error e => rfl
      | ok source => simp [Except.map, Outline.map, Outline.source]; rfl
  | segment gap body rest ihbody ihrest =>
      obtain ⟨hgap, hbody, hrest⟩ := hspaced
      obtain ⟨space₁, glued₁, hinner⟩ := ihbody hbody
        (fun v hv => htextual v (List.mem_append_left _ hv)) false (Outline.lead gap glued)
        (fun _ => rfl) (by simp) (.closing :: (rest.lexemes ++ tail))
      obtain ⟨space', glued', hnext⟩ := ihrest hrest
        (fun v hv => htextual v (List.mem_append_right _ hv)) space₁ false (by simp) (fun _ => rfl)
        tail
      refine ⟨space', glued', ?_⟩
      rw [Outline.lexemes, List.append_assoc, lexemesSource_gap, space_eq_lead hspace hgap,
        List.cons_append, List.append_assoc, List.cons_append, lexemesSource, hinner, lexemesSource,
        hnext]
      simp only [Except.map_map]
      congr 1
      funext source
      simp [Outline.map, Outline.source, leadSource]

/-- The pattern text of a template that spells a spaced outline. -/
theorem patternSource_of_spells {o : Outline (List Char)} {text : String} (hspells : o.Spells text)
    (hspaced : o.Spaced true) {defaults requirements : Bindings}
    (htextual : Textual requirements o.words) :
    patternSource text defaults requirements =
      .ok ('^' :: (o.map (.ofWord defaults requirements)).source false ++ ['$']) := by
  obtain ⟨space, glued, hsource⟩ : ∃ space glued, lexemesSource defaults requirements false false
      (o.lexemes ++ []) = _ :=
    lexemesSource_lexemes hspaced htextual false false (fun _ => rfl) (fun _ => rfl) []
  rw [List.append_nil, ← hspells, lexemesSource_map_bare, lexemesSource] at hsource
  rw [patternSource, hsource]
  simp [Except.map]

namespace Outline

/-! ### Reading the pattern text -/

/-- The tokens of an outline. -/
def tokens : (glued : Bool) → Outline Part → List Token
  | _, done _ => []
  | glued, word gap part rest => part.tokens (lead gap glued) ++ rest.tokens false
  | glued, segment gap body rest =>
      .openPlain {} :: (leadTokens (lead gap glued) ++ body.tokens (lead gap glued)) ++ [.close] ++
        [.quantifier 0 (some 1) false] ++ rest.tokens false

/-- The number of groups of an outline. -/
def groups : Outline Part → Nat
  | done _ => 0
  | word _ part rest => part.groups + rest.groups
  | segment _ body rest => body.groups + rest.groups

/-- The pieces of an outline, when so many groups come before it. -/
def pieces : (glued : Bool) → Nat → Outline Part → List Piece
  | _, _, done _ => []
  | glued, g, word gap part rest =>
      part.pieces (lead gap glued) g ++ rest.pieces false (g + part.groups)
  | glued, g, segment gap body rest =>
      ⟨.rep (Piece.sequence (leadPieces (lead gap glued) ++ body.pieces (lead gap glued) g)) 0
        (some 1) false, .repetition⟩ :: rest.pieces false (g + body.groups)

theorem head?_source (o : Outline Part) (glued : Bool) : (o.source glued).head? ≠ some '?' := by
  induction o generalizing glued with
  | done gap => simp [source]
  | word gap part rest ih => exact head?_append_ne (part.head?_source _) (ih false)
  | segment gap body rest => simp [source]

/-- **How an outline is read**: as its tokens. -/
theorem reads (o : Outline Part) (glued : Bool) : Reads (o.source glued) (o.tokens glued) := by
  induction o generalizing glued with
  | done gap => exact reads_nil
  | word gap part rest ih => exact (part.reads _).append (ih false) (rest.head?_source false)
  | segment gap body rest ihbody ihrest =>
      have hinner := (reads_lead (lead gap glued)).append (ihbody (lead gap glued))
        (body.head?_source _)
      have hclosed := hinner.append (reads_closeOptional.append (ihrest false)
        (rest.head?_source false)) (by simp)
      have h := reads_openPlain.append hclosed
        (head?_append_ne (head?_append_ne (head?_leadSource _) (body.head?_source _)) (by simp))
      simpa [source, tokens] using h

/-- **What an outline adds**: its pieces, and its groups. -/
theorem pushes (o : Outline Part) (glued : Bool) :
    Pushes (o.tokens glued) (fun g => o.pieces glued g) o.groups := by
  induction o generalizing glued with
  | done gap => exact pushes_nil
  | word gap part rest ih => exact (part.pushes _).append (ih false)
  | segment gap body rest ihbody ihrest =>
      have hinner := (pushes_lead (lead gap glued)).append (ihbody (lead gap glued))
      have h := (hinner.plain.quantifier 0 (some 1) false).append (ihrest false)
      simpa [tokens, pieces, groups] using h

/-- The expressions of the pattern of an outline. -/
def patternExprs (o : Outline Part) : List Expr :=
  .anchor .lineStart :: ((o.pieces false 0).map (·.expr) ++ [.anchor .lineEnd])

/-- **The pattern of an outline.** -/
theorem read_source (o : Outline Part) :
    Pattern.read (String.ofList ('^' :: o.source false ++ ['$'])) lineModes = .ok
      { source := String.ofList ('^' :: o.source false ++ ['$']), modes := lineModes,
        expr := .seqAll o.patternExprs, groups := o.groups } := by
  have hreads := reads_caret.append ((o.reads false).append reads_dollar (by decide))
    (head?_append_ne (o.head?_source false) (by decide))
  have hpushes := pushes_caret.append ((o.pushes false).append pushes_dollar)
  have h := read_eq_ok hreads hpushes
  simpa [Piece.sequence, patternExprs] using h

/-! ### Items and parameters -/

/-- The items of an outline. -/
def items : (optional : Bool) → Outline (List Char) → List Item
  | _, done _ => []
  | optional, word _ w rest => Item.ofWord optional w ++ rest.items optional
  | optional, segment _ body rest => body.items true ++ rest.items optional

/-- The parameters of an outline; those in segments are optional. -/
def parameters (defaults : Bindings) : (optional : Bool) → Outline Part → List Parameter
  | _, done _ => []
  | optional, word _ part rest =>
      ((part.parameter? defaults).map fun p => { p with optional := optional || p.optional }).toList
        ++ rest.parameters defaults optional
  | optional, segment _ body rest =>
      body.parameters defaults true ++ rest.parameters defaults optional

end Outline

theorem ofLexemes_map_bare (depth : Nat) (ls : List Lexeme) :
    Item.ofLexemes depth (ls.map Lexeme.bare) = Item.ofLexemes depth ls := by
  induction ls generalizing depth with
  | nil => rfl
  | cons l ls ih =>
      cases l with
      | closing => cases depth <;> simp [Lexeme.bare, Item.ofLexemes, ih]
      | _ => simp [Lexeme.bare, Item.ofLexemes, ih]

/-- The items of an outline stand in front of those of the lexemes behind it. -/
theorem ofLexemes_lexemes (o : Outline (List Char)) (depth : Nat) (tail : List Lexeme) :
    Item.ofLexemes depth (o.lexemes ++ tail) =
      (Item.ofLexemes depth tail).map (o.items (decide (0 < depth)) ++ ·) := by
  have hgap : ∀ gap depth ls, Item.ofLexemes depth (gapLexemes gap ++ ls) =
      Item.ofLexemes depth ls := by
    intro gap depth ls
    cases gap with
    | true => simp [gapLexemes, Item.ofLexemes]
    | false => rfl
  induction o generalizing depth tail with
  | done gap =>
      rw [Outline.lexemes, hgap]
      cases Item.ofLexemes depth tail <;> rfl
  | word gap w rest ih =>
      rw [Outline.lexemes, List.append_assoc, hgap, List.cons_append, Item.ofLexemes, ih,
        Except.map_map]
      congr 1
      funext items
      simp [Outline.items]
  | segment gap body rest ihbody ihrest =>
      rw [Outline.lexemes, List.append_assoc, hgap, List.cons_append, List.append_assoc,
        List.cons_append, Item.ofLexemes, ihbody, Item.ofLexemes, ihrest, Except.map_map]
      congr 1
      funext items
      simp [Outline.items]

/-- The items of a template that spells an outline. -/
theorem items_of_spells {o : Outline (List Char)} {text : String} (hspells : o.Spells text) :
    Item.ofText text = Item.check (o.items false) := by
  have hitems := ofLexemes_lexemes o 0 []
  rw [List.append_nil, ← hspells, ofLexemes_map_bare] at hitems
  rw [Item.ofText, hitems]
  simp [Item.ofLexemes, Except.map, bind, Except.bind]

/-- The parameters of items are those of the first and those of the others. -/
theorem parametersOf_append {options : TemplateOptions} {items more : List Item}
    {parameters others : List Parameter}
    (h : (Template.parametersOf options items).outcome = .ok parameters)
    (hmore : (Template.parametersOf options more).outcome = .ok others) :
    (Template.parametersOf options (items ++ more)).outcome = .ok (parameters ++ others) := by
  induction items generalizing parameters with
  | nil =>
      obtain rfl := Except.ok.inj h
      exact hmore
  | cons item items ih =>
      simp only [Template.parametersOf, Attempt.outcome_bind, Except.bind_eq_ok_iff,
        Attempt.outcome_pure] at h
      obtain ⟨first, hfirst, rest, hrest, h⟩ := h
      obtain rfl := Except.ok.inj h
      simp only [List.cons_append, Template.parametersOf, Attempt.outcome_bind, hfirst, ih hrest]
      exact congrArg Except.ok (List.append_assoc first.toList rest others).symm

/-- The parameter of a word, in a segment or not. -/
theorem parametersOf_ofWord {options : TemplateOptions} {w : List Char}
    (h : ∀ slot, Slot.ofWord? w = some slot →
      (options.requirements.getD (String.ofList slot.name)).IsTextual) (optional : Bool) :
    (Template.parametersOf options (Item.ofWord optional w)).outcome =
      .ok ((Part.parameter? options.defaults
        (.ofWord options.defaults options.requirements w)).map
          fun p => { p with optional := optional || p.optional }).toList := by
  rw [Item.ofWord, Part.ofWord]
  cases hslot : Slot.ofWord? w with
  | none => exact parametersOf_cons_other rfl []
  | some slot =>
      simp only [Part.parameter?, multi_ofRequirement]
      refine parametersOf_cons_parameter (h slot hslot) ?_ slot.multi optional
      cases slot.suffix with
      | nil => rfl
      | cons c suffix => exact parametersOf_cons_other rfl []

/-- The parameters of an outline are those of its items. -/
theorem parametersOf_items {options : TemplateOptions} {o : Outline (List Char)}
    (h : Textual options.requirements o.words) (optional : Bool) :
    (Template.parametersOf options (o.items optional)).outcome =
      .ok ((o.map (.ofWord options.defaults options.requirements)).parameters options.defaults
        optional) := by
  induction o generalizing optional with
  | done gap => rfl
  | word gap w rest ih =>
      exact parametersOf_append (parametersOf_ofWord (h w List.mem_cons_self) optional)
        (ih (fun v hv => h v (List.mem_cons_of_mem w hv)) optional)
  | segment gap body rest ihbody ihrest =>
      exact parametersOf_append (ihbody (fun v hv => h v (List.mem_append_left _ hv)) true)
        (ihrest (fun v hv => h v (List.mem_append_right _ hv)) optional)

/-! ### What compiling makes of an outline -/

/-- A template that has been made from an outline: it has the parameters and the pattern of the
outline, and the options that it was given. -/
structure MadeOfOutline (t : Template) (options : TemplateOptions) (o : Outline Part) : Prop where
  parameters_eq : t.parameters = o.parameters options.defaults false
  expr_eq : t.pattern.expr = .seqAll o.patternExprs
  groups_eq : t.pattern.groups = o.groups
  defaults_eq : t.defaults = options.defaults
  inPublic_eq : t.inPublic = options.inPublic
  inPrivate_eq : t.inPrivate = options.inPrivate

/-- An outline describes a template text when it has its items and its pattern text, whatever the
defaults are, and the requirements, as long as none of them is a pattern. -/
structure Outline.Describes (o : Outline (List Char)) (text : String) : Prop where
  items_eq : Item.ofText text = Item.check (o.items false)
  source_eq : ∀ {defaults requirements : Bindings}, Textual requirements o.words →
    patternSource text defaults requirements =
      .ok ('^' :: (o.map (.ofWord defaults requirements)).source false ++ ['$'])

/-- A spaced outline describes the text that spells it. -/
theorem Outline.Spells.describes {o : Outline (List Char)} {text : String} (h : o.Spells text)
    (hspaced : o.Spaced true) : o.Describes text :=
  ⟨items_of_spells h, fun htextual => patternSource_of_spells h hspaced htextual⟩

/-- **A compiled template** has been made from an outline that describes its text. -/
theorem Outline.Describes.madeOfOutline {identity separator text : String} {options : TemplateOptions}
    {channel : Channel} {t : Template} {o : Outline (List Char)} (hdescribes : o.Describes text)
    (htextual : Textual options.requirements o.words)
    (h : (Template.compile identity (.text text) options separator channel).outcome = .ok t) :
    MadeOfOutline t options (o.map (.ofWord options.defaults options.requirements)) := by
  obtain ⟨text', items, parameters, pattern, path, htext, hitems, hparameters, hpattern, -, rfl⟩ :=
    Template.compile_eq_ok_iff.mp h
  obtain rfl := Value.text.inj htext
  rw [hdescribes.items_eq] at hitems
  obtain ⟨rfl, -⟩ := eq_cons_of_check hitems
  obtain ⟨source, hsource, hread, -⟩ := Template.patternOf_eq_ok_iff.mp hpattern
  obtain rfl := Except.ok.inj ((hdescribes.source_eq htextual).symm.trans hsource)
  obtain rfl := Except.ok.inj ((Outline.read_source _).symm.trans hread)
  obtain rfl := Except.ok.inj ((parametersOf_items htextual false).symm.trans hparameters)
  exact ⟨rfl, rfl, rfl, rfl, rfl, rfl⟩

/-- **A compiled template that spells a spaced outline** has been made from it. -/
theorem madeOfOutline_of_compile {identity separator text : String} {options : TemplateOptions}
    {channel : Channel} {t : Template} {o : Outline (List Char)} (hspells : o.Spells text)
    (hspaced : o.Spaced true) (htextual : Textual options.requirements o.words)
    (h : (Template.compile identity (.text text) options separator channel).outcome = .ok t) :
    MadeOfOutline t options (o.map (.ofWord options.defaults options.requirements)) :=
  (hspells.describes hspaced).madeOfOutline htextual h

end Switchboard
