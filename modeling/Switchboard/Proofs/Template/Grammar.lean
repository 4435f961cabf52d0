import Mathlib.Data.List.Forall2
import Mathlib.Data.List.Infix
import Switchboard.Proofs.Template.Compiled
import Switchboard.Proofs.Text.Words

/-!
# The Grammar of Templates

Reading a template is one pass over its lexemes with a count of the brackets that are open, and a check of the
items at the end. This module says what is accepted without the pass. Brackets are balanced when they count up,
in the whole and in front of each place (`Lexeme.Balanced`); a word stands inside brackets when more of them are
opened than closed in front of it (`Lexeme.placedWords`); and a word names a parameter when a sigil and a word
character start it (`IsDynamic`).

The pass counts upwards, so both notions take the number of brackets that are open already. With it,
each lexeme changes one number and nothing else, and the induction over the lexemes is the one of the pass
(`Item.ofLexemes_eq_ok_iff`).

## Main results

* `Item.ofLexemes_eq_ok_iff`, `Item.check_eq_ok_iff`: what the two halves of reading accept.
* `Item.ofText_eq_ok_iff`: the items of a template text.
* `Item.accepts_exactly_grammatical`: a template is accepted exactly when it is grammatical.
-/

namespace Switchboard

/-! ### Words that name parameters -/

/-- A sigil and a word character behind it start the word. -/
def IsDynamic (word : List Char) : Prop :=
  ∃ sigil c rest, word = sigil :: c :: rest ∧ (sigil = ':' ∨ sigil = '*') ∧ isWordChar c = true

namespace Slot

/-- How a word names a parameter: behind the sigil comes the name, which is the longest run of word
characters there, and then the suffix. -/
structure Spells (slot : Slot) (word : List Char) : Prop where
  word_eq : word = sigil slot.multi :: (slot.name ++ slot.suffix)
  name_ne_nil : slot.name ≠ []
  isWordChar_name : ∀ c ∈ slot.name, isWordChar c = true
  longest : ¬ Starts isWordChar slot.suffix

/-- The sigil says which kind of parameter it is. -/
theorem sigil_eq {c : Char} (h : c = ':' ∨ c = '*') : sigil (c == '*') = c := by
  rcases h with rfl | rfl <;> rfl

/-- What `ofWord?` makes of a sigil and a text behind it. -/
theorem ofWord?_sigil (multi : Bool) {name : List Char} (hname : name ≠ [])
    (hrun : ∀ c ∈ name, isWordChar c = true) {suffix : List Char} (hsuffix : ¬ Starts isWordChar suffix) :
    ofWord? (sigil multi :: (name ++ suffix)) = some { multi, name, suffix } := by
  have htake : (name ++ suffix).takeWhile isWordChar = name :=
    takeWhile_append_of_not_starts hrun hsuffix
  have hdrop : (name ++ suffix).dropWhile isWordChar = suffix := by
    have hsplit := List.takeWhile_append_dropWhile (p := isWordChar) (l := name ++ suffix)
    rw [htake] at hsplit
    exact List.append_cancel_left hsplit
  rw [ofWord?, htake, hdrop]
  cases name with
  | nil => exact absurd rfl hname
  | cons c name => cases multi <;> rfl

/-- **Reading a word as a parameter** gives the sigil, the name and the suffix of the word. -/
theorem ofWord?_eq_some_iff {word : List Char} {slot : Slot} :
    ofWord? word = some slot ↔ slot.Spells word := by
  constructor
  · intro h
    cases word with
    | nil => cases h
    | cons c cs =>
      rw [ofWord?] at h
      split at h
      case isFalse => cases h
      case isTrue hsigil =>
        have hc : c = ':' ∨ c = '*' := by simpa using hsigil
        split at h
        case h_1 => cases h
        case h_2 hname =>
          obtain rfl := Option.some.inj h
          refine ⟨?_, hname, fun d hd => List.mem_takeWhile_imp hd, not_starts_dropWhile isWordChar cs⟩
          rw [sigil_eq hc, List.takeWhile_append_dropWhile]
  · rintro ⟨rfl, hname, hrun, hsuffix⟩
    exact ofWord?_sigil slot.multi hname hrun hsuffix

/-- The words that name parameters are those that `ofWord?` reads. -/
theorem ofWord?_eq_none_iff {word : List Char} : ofWord? word = none ↔ ¬ IsDynamic word := by
  constructor
  · rintro h ⟨sigil, c, rest, rfl, hsigil, hc⟩
    have hstart : (sigil == ':' || sigil == '*') = true := by simpa using hsigil
    rw [ofWord?, if_pos hstart, List.takeWhile_cons_of_pos hc] at h
    cases h
  · intro h
    cases hword : ofWord? word with
    | none => rfl
    | some slot =>
        obtain ⟨rfl, hname, hrun, -⟩ := ofWord?_eq_some_iff.mp hword
        obtain ⟨c, name, hc⟩ := List.exists_cons_of_ne_nil hname
        refine absurd ⟨sigil slot.multi, c, name ++ slot.suffix, ?_, ?_, ?_⟩ h
        · rw [hc, List.cons_append]
        · cases slot.multi <;> simp [sigil]
        · exact hrun c (by rw [hc]; exact List.mem_cons_self)

end Slot

/-! ### Brackets and the words among them -/

namespace Lexeme

/-- The brackets count up where so many are open already: in front of no place more are closed than
are open, and at the end none is open. -/
structure Balanced (depth : Nat) (ls : List Lexeme) : Prop where
  closed_le : ∀ before, before <+: ls → before.count .closing ≤ depth + before.count .opening
  closed_eq : ls.count .closing = depth + ls.count .opening

/-- The word of a lexeme behind others, and whether it stands inside brackets, where so many are open
already: whether fewer are closed than opened in front of it. -/
def placed? (depth : Nat) (before : List Lexeme) : Lexeme → Option (List Char × Bool)
  | .word text => some (text, decide (before.count .closing < depth + before.count .opening))
  | _ => none

/-- The words among lexemes, each with whether it stands inside brackets. -/
def placedWords (depth : Nat) (ls : List Lexeme) : List (List Char × Bool) :=
  (ls.zip ls.inits).filterMap fun (l, before) => placed? depth before l

theorem balanced_nil {depth : Nat} : Balanced depth [] ↔ depth = 0 := by
  constructor
  · rintro ⟨-, h⟩
    simpa using h.symm
  · rintro rfl
    exact ⟨fun before hbefore => by simp [List.prefix_nil.mp hbefore], rfl⟩

/-- By how many a lexeme changes the number of brackets that have been opened. -/
def opened (l : Lexeme) : Nat := if l = .opening then 1 else 0

/-- By how many a lexeme changes the number of brackets that have been closed. -/
def closed (l : Lexeme) : Nat := if l = .closing then 1 else 0

theorem count_opening_cons (l : Lexeme) (ls : List Lexeme) :
    (l :: ls).count .opening = ls.count .opening + l.opened := by
  simp [List.count_cons, opened]

theorem count_closing_cons (l : Lexeme) (ls : List Lexeme) :
    (l :: ls).count .closing = ls.count .closing + l.closed := by
  simp [List.count_cons, closed]

/-- **One lexeme changes the number of open brackets** for those behind it, and nothing else. -/
theorem balanced_cons {depth : Nat} {l : Lexeme} (inside : Nat)
    (hl : depth + l.opened = inside + l.closed) {ls : List Lexeme} :
    Balanced depth (l :: ls) ↔ Balanced inside ls := by
  constructor
  · rintro ⟨hle, heq⟩
    rw [count_closing_cons, count_opening_cons] at heq
    refine ⟨fun before hbefore => ?_, by omega⟩
    have hfront := hle (l :: before) ((List.prefix_cons_inj l).mpr hbefore)
    rw [count_closing_cons, count_opening_cons] at hfront
    omega
  · rintro ⟨hle, heq⟩
    refine ⟨fun before hbefore => ?_, by rw [count_closing_cons, count_opening_cons]; omega⟩
    rcases List.prefix_cons_iff.mp hbefore with rfl | ⟨more, rfl, hmore⟩
    · simp
    · have hfront := hle more hmore
      rw [count_closing_cons, count_opening_cons]
      omega

/-- A bracket that closes what has not been opened is not balanced by anything. -/
theorem not_balanced_closing {ls : List Lexeme} : ¬ Balanced 0 (.closing :: ls) := by
  rintro ⟨hle, -⟩
  have hfront := hle [.closing] ⟨ls, rfl⟩
  simp at hfront

theorem placed?_cons {depth inside : Nat} {l : Lexeme} (hl : depth + l.opened = inside + l.closed)
    (before : List Lexeme) (other : Lexeme) :
    placed? depth (l :: before) other = placed? inside before other := by
  cases other with
  | word text =>
      have hinside : before.count .closing + l.closed < depth + (before.count .opening + l.opened) ↔
          before.count .closing < inside + before.count .opening := by
        omega
      simp only [placed?, count_closing_cons, count_opening_cons, hinside]
  | _ => rfl

@[simp] theorem placedWords_nil (depth : Nat) : placedWords depth [] = [] := rfl

/-- A lexeme has its own word in front of the others. -/
theorem placedWords_cons {depth : Nat} {l : Lexeme} (inside : Nat)
    (hl : depth + l.opened = inside + l.closed) (ls : List Lexeme) :
    placedWords depth (l :: ls) = (placed? depth [] l).toList ++ placedWords inside ls := by
  have hrest : (ls.zip (ls.inits.map (l :: ·))).filterMap (fun (l, before) => placed? depth before l) =
      placedWords inside ls := by
    rw [List.zip_map_right, List.filterMap_map, placedWords]
    exact List.filterMap_congr fun pair _ => placed?_cons hl pair.2 pair.1
  rw [placedWords, List.inits_cons, List.zip_cons_cons, List.filterMap_cons, hrest]
  cases hplaced : placed? depth [] l <;> simp [hplaced]

/-- A word has the place that the number of open brackets says. -/
theorem placedWords_word (depth : Nat) (text : List Char) (ls : List Lexeme) :
    placedWords depth (.word text :: ls) = (text, decide (0 < depth)) :: placedWords depth ls := by
  rw [placedWords_cons depth rfl]
  rfl

/-- The words are those of the lexemes. -/
theorem mem_of_mem_placedWords {depth : Nat} {ls : List Lexeme} {word : List Char} {inside : Bool}
    (h : (word, inside) ∈ placedWords depth ls) : .word word ∈ ls := by
  obtain ⟨⟨l, before⟩, hmem, hplaced⟩ := List.mem_filterMap.mp h
  cases l with
  | word text =>
      obtain ⟨rfl, -⟩ := Prod.mk.inj (Option.some.inj hplaced)
      exact (List.of_mem_zip hmem).1
  | _ => cases hplaced

/-- Each word among the lexemes has a place. -/
theorem exists_mem_placedWords (depth : Nat) {ls : List Lexeme} {word : List Char} (h : .word word ∈ ls) :
    ∃ inside, (word, inside) ∈ placedWords depth ls := by
  have hzip : (ls.zip ls.inits).map Prod.fst = ls := List.map_fst_zip (by simp)
  rw [← hzip] at h
  obtain ⟨⟨l, before⟩, hmem, rfl⟩ := List.mem_map.mp h
  exact ⟨_, List.mem_filterMap.mpr ⟨_, hmem, rfl⟩⟩

/-- A template is grammatical when its brackets are balanced, it starts with a word that is no parameter and
stands outside of brackets, and no two of its words name parameters of the same name. -/
structure Grammatical (ls : List Lexeme) : Prop where
  balanced : Balanced 0 ls
  starts : ∃ word more, placedWords 0 ls = (word, false) :: more ∧ ¬ IsDynamic word
  distinct : (placedWords 0 ls).Pairwise fun v w =>
    ∀ s t : Slot, s.Spells v.1 → t.Spells w.1 → s.name ≠ t.name

end Lexeme

namespace Item

/-! ### The items of words -/

/-- **What a word becomes**: one literal, or a parameter with its suffix when there is one. The items are
optional when the word stands inside brackets. -/
inductive Reads : List Char × Bool → List Item → Prop
  | literal {word : List Char} {inside : Bool} (hword : ¬ IsDynamic word) :
      Reads (word, inside) [⟨.literal (String.ofList word), inside⟩]
  | parameter {word : List Char} {inside : Bool} {slot : Slot} (hslot : slot.Spells word)
      (hsuffix : slot.suffix = []) :
      Reads (word, inside) [⟨.parameter (String.ofList slot.name) slot.multi, inside⟩]
  | suffixed {word : List Char} {inside : Bool} {slot : Slot} (hslot : slot.Spells word)
      (hsuffix : slot.suffix ≠ []) :
      Reads (word, inside) [⟨.parameter (String.ofList slot.name) slot.multi, inside⟩,
        ⟨.suffix (String.ofList slot.suffix), inside⟩]

theorem reads_ofWord (word : List Char) (inside : Bool) : Reads (word, inside) (ofWord inside word) := by
  rw [ofWord]
  cases hslot : Slot.ofWord? word with
  | none => exact .literal (Slot.ofWord?_eq_none_iff.mp hslot)
  | some slot =>
      have hspells := Slot.ofWord?_eq_some_iff.mp hslot
      by_cases hsuffix : slot.suffix = []
      · simpa [hsuffix] using @Reads.parameter word inside slot hspells hsuffix
      · simpa [hsuffix] using @Reads.suffixed word inside slot hspells hsuffix

/-- The texts of the items of a word make up the word. -/
theorem Reads.join_value {word : List Char} {inside : Bool} {items : List Item}
    (h : Reads (word, inside) items) : items.flatMap (fun item => item.value.toList) = word := by
  cases h with
  | literal hword => simp [value]
  | parameter hslot hsuffix => simp [value, hslot.word_eq, hsuffix]
  | suffixed hslot hsuffix => simp [value, hslot.word_eq]

/-- The names among the items of a word. -/
theorem filterMap_name?_ofWord (inside : Bool) (word : List Char) :
    (ofWord inside word).filterMap name? =
      ((Slot.ofWord? word).map fun slot => String.ofList slot.name).toList := by
  rw [ofWord]
  cases hslot : Slot.ofWord? word with
  | none => rfl
  | some slot => by_cases hsuffix : slot.suffix.isEmpty = true <;> simp [hsuffix, name?]

/-- The items of words, each of which stands inside brackets or does not. -/
def ofPlacedWords (words : List (List Char × Bool)) : List Item :=
  words.flatMap fun placed => ofWord placed.2 placed.1

/-- **The items of lexemes**: the brackets must be balanced, and each word has its own. -/
theorem ofLexemes_eq_ok_iff {depth : Nat} {ls : List Lexeme} {items : List Item} :
    ofLexemes depth ls = .ok items ↔
      Lexeme.Balanced depth ls ∧ items = ofPlacedWords (Lexeme.placedWords depth ls) := by
  induction ls generalizing depth items with
  | nil =>
      rw [Lexeme.balanced_nil, Lexeme.placedWords_nil]
      cases depth with
      | zero => simp [ofLexemes, ofPlacedWords, eq_comm]
      | succ depth => simp [ofLexemes]
  | cons l ls ih =>
      cases l with
      | blank run =>
          rw [ofLexemes, ih, Lexeme.balanced_cons depth rfl, Lexeme.placedWords_cons depth rfl]
          rfl
      | opening =>
          rw [ofLexemes, ih, Lexeme.balanced_cons (depth + 1) rfl,
            Lexeme.placedWords_cons (depth + 1) rfl]
          rfl
      | closing =>
          cases depth with
          | zero =>
              rw [ofLexemes]
              exact ⟨nofun, fun h => absurd h.1 Lexeme.not_balanced_closing⟩
          | succ depth =>
              rw [ofLexemes, ih, Lexeme.balanced_cons depth rfl, Lexeme.placedWords_cons depth rfl]
              rfl
      | word text =>
          rw [ofLexemes, Except.map_eq_ok_iff, Lexeme.balanced_cons depth rfl, Lexeme.placedWords_word,
            ofPlacedWords, List.flatMap_cons]
          constructor
          · rintro ⟨rest, hrest, rfl⟩
            obtain ⟨hbalanced, rfl⟩ := ih.mp hrest
            exact ⟨hbalanced, rfl⟩
          · rintro ⟨hbalanced, rfl⟩
            exact ⟨_, ih.mpr ⟨hbalanced, rfl⟩, rfl⟩

/-! ### The check of the items -/

/-- No name is used twice, and none of those seen before. -/
theorem duplicate?_eq_none_iff {seen : List String} {items : List Item} :
    duplicate? seen items = none ↔
      (items.filterMap name?).Nodup ∧ ∀ name ∈ items.filterMap name?, name ∉ seen := by
  induction items generalizing seen with
  | nil => simp [duplicate?]
  | cons item items ih =>
      rw [duplicate?]
      cases hname : item.name? with
      | none =>
          rw [List.filterMap_cons_none hname]
          exact ih
      | some name =>
          rw [List.filterMap_cons_some hname]
          by_cases hseen : name ∈ seen
          · simp [hseen]
          · simp only [List.contains_iff_mem, hseen, if_false, ih, List.nodup_cons, List.forall_mem_cons,
              not_false_eq_true, true_and]
            constructor
            · rintro ⟨hnodup, hfresh⟩
              refine ⟨⟨fun hmem => hfresh name hmem List.mem_cons_self, hnodup⟩, fun other hother => ?_⟩
              exact fun hmem => hfresh other hother (List.mem_cons_of_mem name hmem)
            · rintro ⟨⟨hfirst, hnodup⟩, hfresh⟩
              refine ⟨hnodup, fun other hother hmem => ?_⟩
              rcases List.mem_cons.mp hmem with rfl | hmem
              · exact hfirst hother
              · exact hfresh other hother hmem

/-- **What the check accepts**: items that start with a literal outside of brackets, and in which no name
is used twice. -/
theorem check_eq_ok_iff {items checked : List Item} :
    check items = .ok checked ↔
      checked = items ∧
        (∃ first rest, items = first :: rest ∧ first.isParameter = false ∧ first.optional = false) ∧
        (items.filterMap name?).Nodup := by
  cases items with
  | nil => simp [check]
  | cons first rest =>
      have hnames : duplicate? [] (first :: rest) = none ↔ ((first :: rest).filterMap name?).Nodup := by
        simp [duplicate?_eq_none_iff]
      have hfirst : (∃ head tail, first :: rest = head :: tail ∧ head.isParameter = false ∧
          head.optional = false) ↔ first.isParameter = false ∧ first.optional = false := by
        constructor
        · rintro ⟨head, tail, heq, hhead⟩
          obtain ⟨rfl, -⟩ := List.cons.inj heq
          exact hhead
        · exact fun hhead => ⟨first, rest, rfl, hhead⟩
      rw [check, hfirst, ← hnames]
      cases first.isParameter <;> cases first.optional <;> cases duplicate? [] (first :: rest) <;>
        simp [eq_comm (a := checked)]

/-! ### Template texts -/

/-- Items start with a literal outside of brackets when their words do. -/
theorem exists_literal_front_iff {words : List (List Char × Bool)} :
    (∃ first rest, ofPlacedWords words = first :: rest ∧ first.isParameter = false ∧
        first.optional = false) ↔
      ∃ word more, words = (word, false) :: more ∧ ¬ IsDynamic word := by
  cases words with
  | nil => simp [ofPlacedWords]
  | cons placed more =>
      obtain ⟨word, inside⟩ := placed
      rw [ofPlacedWords, List.flatMap_cons, ofWord]
      cases hslot : Slot.ofWord? word with
      | none =>
          have hliteral : ¬ IsDynamic word := Slot.ofWord?_eq_none_iff.mp hslot
          simp [isParameter, hliteral]
      | some slot =>
          have hdynamic : IsDynamic word := by
            by_contra hliteral
            rw [Slot.ofWord?_eq_none_iff.mpr hliteral] at hslot
            cases hslot
          simp [isParameter, hdynamic]

/-- Items have different names when the words that name parameters do. -/
theorem nodup_names_iff {words : List (List Char × Bool)} :
    ((ofPlacedWords words).filterMap name?).Nodup ↔
      words.Pairwise fun v w => ∀ s t : Slot, s.Spells v.1 → t.Spells w.1 → s.name ≠ t.name := by
  have hnames : (ofPlacedWords words).filterMap name? =
      words.filterMap fun placed => (Slot.ofWord? placed.1).map fun slot => String.ofList slot.name := by
    rw [ofPlacedWords, List.filterMap_flatMap, List.filterMap_eq_flatMap_toList]
    exact List.flatMap_congr fun placed _ => filterMap_name?_ofWord placed.2 placed.1
  rw [hnames, List.Nodup, List.pairwise_filterMap]
  refine List.Pairwise.iff fun v w => ?_
  simp only [Option.map_eq_some_iff, Slot.ofWord?_eq_some_iff]
  constructor
  · intro h s t hs ht heq
    exact h _ ⟨s, hs, rfl⟩ _ ⟨t, ht, rfl⟩ (congrArg String.ofList heq)
  · rintro h _ ⟨s, hs, rfl⟩ _ ⟨t, ht, rfl⟩ heq
    exact h s t hs ht (String.ofList_injective heq)

/-- **The items of a template text** are those of its words, when it is grammatical. -/
theorem ofText_eq_ok_iff {text : String} {items : List Item} :
    ofText text = .ok items ↔
      Lexeme.Grammatical (Lexeme.ofText text) ∧
        items = ofPlacedWords (Lexeme.placedWords 0 (Lexeme.ofText text)) := by
  rw [ofText, Except.bind_eq_ok_iff]
  simp only [ofLexemes_eq_ok_iff, check_eq_ok_iff]
  constructor
  · rintro ⟨_, ⟨hbalanced, rfl⟩, rfl, hfirst, hnames⟩
    exact ⟨⟨hbalanced, exists_literal_front_iff.mp hfirst, nodup_names_iff.mp hnames⟩, rfl⟩
  · rintro ⟨h, rfl⟩
    exact ⟨_, ⟨h.balanced, rfl⟩, rfl, exists_literal_front_iff.mpr h.starts,
      nodup_names_iff.mpr h.distinct⟩

/-- The items of a template value that is a text are those of the text. -/
theorem ofValue_text_eq_ok_iff {text : String} {items : List Item} :
    ofValue (.text text) = .ok (text, items) ↔ ofText text = .ok items := by
  rw [ofValue, Except.map_eq_ok_iff]
  simp [Except.mapError_eq_ok_iff]

/-- The items of words are what each of them is read as, one after the other. -/
theorem exists_reads_ofPlacedWords (words : List (List Char × Bool)) :
    ∃ groups, List.Forall₂ Reads words groups ∧ ofPlacedWords words = groups.flatten := by
  refine ⟨words.map fun placed => ofWord placed.2 placed.1, ?_, ?_⟩
  · rw [List.forall₂_map_right_iff, List.forall₂_same]
    exact fun placed _ => reads_ofWord placed.1 placed.2
  · rw [ofPlacedWords, List.flatMap_def]

/-- The texts of the items make up the words. -/
theorem join_value_ofPlacedWords (words : List (List Char × Bool)) :
    String.join ((ofPlacedWords words).map value) =
      String.join (words.map fun placed => String.ofList placed.1) := by
  apply String.toList_injective
  simp only [String.toList_join, List.flatMap_map, ofPlacedWords, List.flatMap_assoc,
    String.toList_ofList]
  exact List.flatMap_congr fun placed _ => (reads_ofWord placed.1 placed.2).join_value

/-- **A template is accepted exactly when it is grammatical.** It is then read as one item for each of its words
that names no parameter, and as a parameter, with its suffix if it has one, for each that does, in order;
an item is optional exactly when its word stands inside brackets; and the texts of the items make up the
words. A template that is not grammatical is reported with the cause. -/
theorem accepts_exactly_grammatical (text : String) :
    ((∃ items, ofValue (.text text) = .ok (text, items)) ↔ Lexeme.Grammatical (Lexeme.ofText text)) ∧
      (¬ Lexeme.Grammatical (Lexeme.ofText text) →
        ∃ cause, ofValue (.text text) = .error (.template cause (some text))) ∧
      ∀ items, ofValue (.text text) = .ok (text, items) →
        (∃ groups, List.Forall₂ Reads (Lexeme.placedWords 0 (Lexeme.ofText text)) groups ∧
          items = groups.flatten) ∧
        String.join (items.map value) = String.join
          ((Lexeme.placedWords 0 (Lexeme.ofText text)).map fun placed => String.ofList placed.1) := by
  simp only [ofValue_text_eq_ok_iff, ofText_eq_ok_iff]
  refine ⟨⟨fun ⟨_, h, _⟩ => h, fun h => ⟨_, h, rfl⟩⟩, fun h => ?_, ?_⟩
  · cases hitems : ofText text with
    | ok items => exact absurd (ofText_eq_ok_iff.mp hitems).1 h
    | error cause => exact ⟨cause, by rw [ofValue, hitems]; rfl⟩
  · rintro items ⟨-, rfl⟩
    exact ⟨exists_reads_ofPlacedWords _, join_value_ofPlacedWords _⟩

/-- A template with nested segments and a suffix is grammatical, and one whose first bracket is never closed
is not. -/
theorem accepts_exactly_grammatical_seen :
    Lexeme.Grammatical (Lexeme.ofText "seen [by [:who]] :nick?") ∧
      (∃ items, ofValue (.text "seen [by [:who]] :nick?") = .ok ("seen [by [:who]] :nick?", items) ∧
        String.join (items.map value) = "seenby:who:nick?") ∧
      ∃ cause, ofValue (.text "seen [by :who") = .error (.template cause (some "seen [by :who")) := by
  obtain ⟨items, hitems, hvalues⟩ : ∃ items, ofValue (.text "seen [by [:who]] :nick?") =
      .ok ("seen [by [:who]] :nick?", items) ∧
        String.join (items.map value) = "seenby:who:nick?" := ⟨_, rfl, rfl⟩
  have hopen : ¬ Lexeme.Grammatical (Lexeme.ofText "seen [by :who") := by
    intro h
    have hcount := h.balanced.closed_eq
    revert hcount
    decide
  obtain ⟨haccepted, -, -⟩ := accepts_exactly_grammatical "seen [by [:who]] :nick?"
  obtain ⟨-, hrejected, -⟩ := accepts_exactly_grammatical "seen [by :who"
  exact ⟨haccepted.mp ⟨items, hitems⟩, ⟨items, hitems, hvalues⟩, hrejected hopen⟩

end Item

end Switchboard
