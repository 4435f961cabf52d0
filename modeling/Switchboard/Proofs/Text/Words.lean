import Mathlib.Data.List.DropRight
import Switchboard.Text.Blank

/-!
# Words and Blanks

What `words` and `trim` do, said in terms of the parts of a text. A text is nothing, or a blank
and a text, or a word and a text at which no word goes on; `words_induction` is the induction
that goes with this. Templates and messages are both taken apart in this way, which is why their
words can be compared.

A text without blanks at its ends is one that `trim` leaves alone (`trim_eq_self_iff`), and
trimming changes no words (`words_trim`).
-/

namespace Switchboard

/-- Whether a character belongs to a word. -/
def nonblank (c : Char) : Bool := !isBlank c

theorem isBlank_space : isBlank ' ' = true := by decide

/-- A text that starts with a character of a kind. -/
def Starts (p : Char → Bool) (cs : List Char) : Prop := ∃ c rest, cs = c :: rest ∧ p c = true

@[simp] theorem not_starts_nil (p : Char → Bool) : ¬ Starts p [] := by
  rintro ⟨c, rest, heq, -⟩
  cases heq

@[simp] theorem starts_cons {p : Char → Bool} {c : Char} {cs : List Char} :
    Starts p (c :: cs) ↔ p c = true := by
  constructor
  · rintro ⟨d, rest, heq, hd⟩
    obtain ⟨rfl, -⟩ := List.cons.inj heq
    exact hd
  · intro hc
    exact ⟨c, cs, rfl, hc⟩

instance (p : Char → Bool) : DecidablePred (Starts p)
  | [] => .isFalse (not_starts_nil p)
  | _ :: _ => decidable_of_iff _ starts_cons.symm

/-- The characters that a run takes, when it is known where it ends. -/
theorem takeWhile_append_of_not_starts {p : Char → Bool} {run rest : List Char}
    (hrun : ∀ c ∈ run, p c = true) (hrest : ¬ Starts p rest) :
    (run ++ rest).takeWhile p = run := by
  rw [List.takeWhile_append_of_pos hrun]
  cases rest with
  | nil => simp
  | cons c rest =>
      have hc : ¬ p c = true := fun h => hrest ⟨c, rest, rfl, h⟩
      rw [List.takeWhile_cons_of_neg hc, List.append_nil]

/-- No character of a kind comes behind the longest run of them. -/
theorem not_starts_dropWhile (p : Char → Bool) (cs : List Char) : ¬ Starts p (cs.dropWhile p) := by
  rintro ⟨c, rest, heq, hc⟩
  have hfirst := List.head?_dropWhile_not p cs
  rw [heq] at hfirst
  simp [hc] at hfirst

/-- A word: characters in a row, at least one, that are not blank. -/
structure IsWord (w : List Char) : Prop where
  ne_nil : w ≠ []
  nonblank : ∀ c ∈ w, nonblank c = true

/-- No blank comes where a word starts. -/
theorem IsWord.not_starts_blank {w : List Char} (hw : IsWord w) (rest : List Char) :
    ¬ Starts isBlank (w ++ rest) := by
  obtain ⟨c, w, rfl⟩ := List.exists_cons_of_ne_nil hw.ne_nil
  simpa [Switchboard.nonblank] using hw.nonblank c List.mem_cons_self

/-- A text that starts with a word falls into the whole of this word and a rest. -/
theorem exists_word_append {cs : List Char} (h : Starts nonblank cs) :
    ∃ w rest, cs = w ++ rest ∧ IsWord w ∧ ¬ Starts nonblank rest := by
  obtain ⟨c, tail, rfl, hc⟩ := h
  refine ⟨(c :: tail).takeWhile nonblank, (c :: tail).dropWhile nonblank,
    List.takeWhile_append_dropWhile.symm, ⟨?_, ?_⟩, not_starts_dropWhile nonblank _⟩
  · rw [List.takeWhile_cons_of_pos hc]
    exact List.cons_ne_nil _ _
  · intro d hd
    exact List.mem_takeWhile_imp hd

/-! ### Taking a text apart -/

/-- A word in front of a text is its first word, when it does not go on there. -/
theorem words_word_append {w rest : List Char} (hw : IsWord w) (hrest : ¬ Starts nonblank rest) :
    words (w ++ rest) = w :: words rest := by
  obtain ⟨hne, hnonblank⟩ := hw
  induction w with
  | nil => exact absurd rfl hne
  | cons c w ih =>
      have hc : isBlank c = false := by simpa [nonblank] using hnonblank c List.mem_cons_self
      rw [List.cons_append, words, if_neg (by simp [hc])]
      cases w with
      | nil =>
          cases rest with
          | nil => rfl
          | cons d rest =>
              have hd : isBlank d = true := by simpa [nonblank] using hrest
              cases hwords : words (d :: rest) <;> simp [hwords, hd]
      | cons d w =>
          have hd : isBlank d = false := by simpa [nonblank] using hnonblank d (by simp)
          rw [ih (List.cons_ne_nil d w) fun e he => hnonblank e (List.mem_cons_of_mem c he)]
          simp [hd]

/-- **Taking a text apart** into blanks and whole words. -/
@[elab_as_elim]
theorem words_induction {motive : List Char → Prop} (nil : motive [])
    (blank : ∀ c cs, isBlank c = true → motive cs → motive (c :: cs))
    (word : ∀ w rest, IsWord w → ¬ Starts nonblank rest → motive rest → motive (w ++ rest))
    (cs : List Char) : motive cs := by
  induction hlength : cs.length using Nat.strongRecOn generalizing cs with
  | ind n ih =>
      cases cs with
      | nil => exact nil
      | cons c cs =>
          by_cases hc : isBlank c = true
          · exact blank c cs hc (ih cs.length (by simp [← hlength]) cs rfl)
          · obtain ⟨w, rest, heq, hw, hrest⟩ :=
              exists_word_append (starts_cons.mpr (by simpa [nonblank] using hc))
            have hpos : 0 < w.length := List.length_pos_iff.mpr hw.ne_nil
            have hshorter : rest.length < n := by
              rw [← hlength, heq, List.length_append]
              omega
            exact heq ▸ word w rest hw hrest (ih rest.length hshorter rest rfl)

/-- Every one of the words is a word. -/
theorem isWord_of_mem_words {cs w : List Char} (h : w ∈ words cs) : IsWord w := by
  induction cs using words_induction with
  | nil => cases h
  | blank c cs hc ih =>
      rw [words_cons_blank cs hc] at h
      exact ih h
  | word w' rest hw hrest ih =>
      rw [words_word_append hw hrest] at h
      rcases List.mem_cons.mp h with rfl | hmem
      · exact hw
      · exact ih hmem

/-- Blanks in front of a text change no words. -/
theorem words_blanks_append {gap : List Char} (hgap : ∀ c ∈ gap, isBlank c = true)
    (cs : List Char) : words (gap ++ cs) = words cs := by
  induction gap with
  | nil => rfl
  | cons c gap ih =>
      rw [List.cons_append, words_cons_blank _ (hgap c List.mem_cons_self)]
      exact ih fun d hd => hgap d (List.mem_cons_of_mem c hd)

theorem not_starts_append {p : Char → Bool} {cs ds : List Char} (hcs : ¬ Starts p cs)
    (hds : ¬ Starts p ds) : ¬ Starts p (cs ++ ds) := by
  cases cs with
  | nil => exact hds
  | cons c cs => simpa using hcs

/-- Where no word goes on, the words before and the words behind are the words of the whole. -/
theorem words_append {ds : List Char} (hds : ¬ Starts nonblank ds) (cs : List Char) :
    words (cs ++ ds) = words cs ++ words ds := by
  induction cs using words_induction with
  | nil => rfl
  | blank c cs hc ih => rw [List.cons_append, words_cons_blank _ hc, words_cons_blank _ hc, ih]
  | word w rest hw hrest ih =>
      rw [List.append_assoc, words_word_append hw (not_starts_append hrest hds),
        words_word_append hw hrest, ih, List.cons_append]

/-- Blanks behind a text change no words. -/
theorem words_append_blanks {gap : List Char} (hgap : ∀ c ∈ gap, isBlank c = true)
    (cs : List Char) : words (cs ++ gap) = words cs := by
  have hstart : ¬ Starts nonblank gap := by
    rintro ⟨c, rest, rfl, hc⟩
    simp [nonblank, hgap c List.mem_cons_self] at hc
  have hnone : words gap = [] := by simpa using words_blanks_append hgap []
  rw [words_append hstart, hnone, List.append_nil]

/-- A text has no words exactly when all of it is blank. -/
theorem words_eq_nil_iff {cs : List Char} : words cs = [] ↔ ∀ c ∈ cs, isBlank c = true := by
  induction cs using words_induction with
  | nil => simp
  | blank c cs hc ih => rw [words_cons_blank cs hc, ih, List.forall_mem_cons, and_iff_right hc]
  | word w rest hw hrest ih =>
      rw [words_word_append hw hrest]
      obtain ⟨c, hc⟩ := List.exists_mem_of_ne_nil w hw.ne_nil
      have hnonblank := hw.nonblank c hc
      constructor
      · intro h
        cases h
      · intro h
        have hblank := h c (List.mem_append_left rest hc)
        simp [nonblank, hblank] at hnonblank

/-- Words with a space between them are the words of the text, and nothing else is. -/
theorem words_intercalate_iff {ws : List (List Char)} :
    words ([' '].intercalate ws) = ws ↔ ∀ w ∈ ws, IsWord w := by
  constructor
  · intro h w hw
    rw [← h] at hw
    exact isWord_of_mem_words hw
  · intro h
    induction ws with
    | nil => rfl
    | cons w ws ih =>
        have hw : IsWord w := h w List.mem_cons_self
        have hrest := ih fun v hv => h v (List.mem_cons_of_mem w hv)
        cases ws with
        | nil =>
            have halone := words_word_append hw (not_starts_nil nonblank)
            rw [List.append_nil] at halone
            rw [List.intercalate_singleton, halone, words_nil]
        | cons v ws =>
            have hspace : ¬ Starts nonblank (' ' :: [' '].intercalate (v :: ws)) := by
              rw [starts_cons]
              decide
            rw [List.intercalate_cons_cons, List.append_assoc, List.singleton_append,
              words_word_append hw hspace, words_cons_blank _ isBlank_space, hrest]

/-! ### Trimmed texts -/

/-- Taking blanks from the ends of a text changes no words. -/
theorem words_trim (cs : List Char) : words (trim cs) = words cs := by
  have hstart : words (cs.dropWhile isBlank) = words cs := by
    have hgap : ∀ c ∈ cs.takeWhile isBlank, isBlank c = true :=
      fun c hc => List.mem_takeWhile_imp hc
    have hsplit := words_blanks_append hgap (cs.dropWhile isBlank)
    rw [← hsplit, List.takeWhile_append_dropWhile]
  have hend : ∀ ds : List Char, words (trimEnd ds) = words ds := by
    intro ds
    have hgap : ∀ c ∈ ds.rtakeWhile isBlank, isBlank c = true :=
      fun c hc => List.mem_rtakeWhile_imp hc
    have hsplit := words_append_blanks hgap (ds.rdropWhile isBlank)
    rw [List.rdropWhile_append_rtakeWhile] at hsplit
    exact hsplit.symm
  rw [trim, hend, hstart]

/-- A text that does not end with a blank. -/
def EndsTight (cs : List Char) : Prop := ∀ c ∈ cs.getLast?, isBlank c = false

instance : DecidablePred EndsTight :=
  fun cs => inferInstanceAs (Decidable (∀ c ∈ cs.getLast?, isBlank c = false))

@[simp] theorem endsTight_nil : EndsTight [] := by
  intro c hc
  cases hc

/-- The end of a text is that of any part behind which nothing comes. -/
theorem endsTight_append {cs rest : List Char} (hrest : rest ≠ []) :
    EndsTight (cs ++ rest) ↔ EndsTight rest := by
  rw [EndsTight, EndsTight, List.getLast?_append_of_ne_nil cs hrest]

/-- A word in front of a text does not change how it ends. -/
theorem endsTight_word_append {w : List Char} (hw : IsWord w) (rest : List Char) :
    EndsTight (w ++ rest) ↔ EndsTight rest := by
  by_cases hrest : rest = []
  · subst hrest
    rw [List.append_nil, iff_true_right endsTight_nil]
    intro c hc
    simpa [nonblank] using hw.nonblank c (List.mem_of_getLast? hc)
  · exact endsTight_append hrest

/-- Blanks alone do not end tight. -/
theorem not_endsTight_of_blank {gap : List Char} (hne : gap ≠ [])
    (hgap : ∀ c ∈ gap, isBlank c = true) : ¬ EndsTight gap := by
  intro h
  have hlast := h _ (List.getLast?_eq_some_getLast hne)
  rw [hgap _ (List.getLast_mem hne)] at hlast
  cases hlast

/-- Trimming takes a text from the front of what is left without the first blanks. -/
theorem trim_isPrefix_dropWhile (cs : List Char) : trim cs <+: cs.dropWhile isBlank :=
  List.rdropWhile_prefix isBlank _

/-- A trimmed text does not start with a blank. -/
theorem not_starts_trim (cs : List Char) : ¬ Starts isBlank (trim cs) := by
  rintro ⟨c, rest, heq, hc⟩
  obtain ⟨more, hmore⟩ := trim_isPrefix_dropWhile cs
  refine not_starts_dropWhile isBlank cs ⟨c, rest ++ more, ?_, hc⟩
  rw [← hmore, heq, List.cons_append]

/-- A trimmed text does not end with a blank. -/
theorem endsTight_trim (cs : List Char) : EndsTight (trim cs) := by
  intro c hc
  have hne : trim cs ≠ [] := by
    rintro heq
    rw [heq] at hc
    cases hc
  have hlast := List.rdropWhile_last_not isBlank (cs.dropWhile isBlank) hne
  rw [List.getLast?_eq_some_getLast hne] at hc
  obtain rfl := Option.mem_some.mp hc
  exact Bool.eq_false_iff.mpr hlast

/-- **A text is trimmed** when it neither starts nor ends with a blank. -/
theorem trim_eq_self_iff {cs : List Char} :
    trim cs = cs ↔ ¬ Starts isBlank cs ∧ EndsTight cs := by
  constructor
  · intro h
    rw [← h]
    exact ⟨not_starts_trim cs, endsTight_trim cs⟩
  · rintro ⟨hstart, hend⟩
    have hdrop : cs.dropWhile isBlank = cs := by
      cases cs with
      | nil => rfl
      | cons c cs => exact List.dropWhile_cons_of_neg (mt starts_cons.mpr hstart)
    rw [trim, hdrop]
    refine List.rdropWhile_eq_self_iff.mpr fun hne hlast => ?_
    have hblank := hend _ (List.getLast?_eq_some_getLast hne)
    rw [hlast] at hblank
    cases hblank

/-! ### The next word -/

/-- Blanks come next, then a word, and then a rest at which the word does not go on. -/
structure NextWord (cs gap w rest : List Char) : Prop where
  eq_append : cs = gap ++ (w ++ rest)
  gap_ne_nil : gap ≠ []
  gap_blank : ∀ c ∈ gap, isBlank c = true
  isWord : IsWord w
  not_starts : ¬ Starts nonblank rest

theorem NextWord.words_eq {cs gap w rest : List Char} (h : NextWord cs gap w rest) :
    words cs = w :: words rest := by
  rw [h.eq_append, words_blanks_append h.gap_blank, words_word_append h.isWord h.not_starts]

theorem NextWord.endsTight_iff {cs gap w rest : List Char} (h : NextWord cs gap w rest) :
    EndsTight cs ↔ EndsTight rest := by
  have hne : w ++ rest ≠ [] := List.append_ne_nil_of_left_ne_nil h.isWord.ne_nil rest
  rw [h.eq_append, endsTight_append hne, endsTight_word_append h.isWord]

/-- Where no word goes on, there are only blanks, or there is a next word. -/
theorem blank_or_nextWord {cs : List Char} (h : ¬ Starts nonblank cs) :
    (∀ c ∈ cs, isBlank c = true) ∨ ∃ gap w rest, NextWord cs gap w rest := by
  induction cs with
  | nil => exact .inl fun c hc => nomatch hc
  | cons c cs ih =>
      have hc : isBlank c = true := by simpa [nonblank] using h
      by_cases hword : Starts nonblank cs
      · obtain ⟨w, rest, rfl, hw, hrest⟩ := exists_word_append hword
        exact .inr ⟨[c], w, rest, rfl, List.cons_ne_nil c [], by simpa using hc, hw, hrest⟩
      · rcases ih hword with hblank | ⟨gap, w, rest, hnext⟩
        · exact .inl (List.forall_mem_cons.mpr ⟨hc, hblank⟩)
        · refine .inr ⟨c :: gap, w, rest, ?_, List.cons_ne_nil c gap, ?_, hnext.isWord,
            hnext.not_starts⟩
          · rw [hnext.eq_append, List.cons_append]
          · exact List.forall_mem_cons.mpr ⟨hc, hnext.gap_blank⟩

/-- A first word, at a place where no word goes on, is the next word. -/
theorem exists_nextWord_of_words_eq {cs w : List Char} {ws : List (List Char)}
    (h : ¬ Starts nonblank cs) (hwords : words cs = w :: ws) :
    ∃ gap rest, NextWord cs gap w rest ∧ ws = words rest := by
  rcases blank_or_nextWord h with hblank | ⟨gap, w', rest, hnext⟩
  · rw [words_eq_nil_iff.mpr hblank] at hwords
    cases hwords
  · rw [hnext.words_eq] at hwords
    obtain ⟨rfl, rfl⟩ := List.cons.inj hwords
    exact ⟨gap, rest, hnext, rfl⟩

/-- A text without words that does not end with a blank is empty. -/
theorem eq_nil_of_words_eq_nil {cs : List Char} (hwords : words cs = []) (hend : EndsTight cs) :
    cs = [] := by
  by_contra hne
  exact not_endsTight_of_blank hne (words_eq_nil_iff.mp hwords) hend

end Switchboard
