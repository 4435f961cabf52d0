import Mathlib.Data.List.Chain
import Switchboard.Proofs.Text.Words
import Switchboard.Template.Lexeme

/-!
# Lexemes are Maximal Runs

The lexemes of a template are its brackets and its longest runs of blanks and of other characters.
`Lexeme.scan` finds them from the end of the text, one character after the other, and a character that is
put in front of lexemes does one of six things (`Lexeme.Puts`). Everything else here comes from these six
cases: the lexemes of a text are whole, and runs of one kind do not touch (`Lexeme.maximal_scan`).

Conversely such lexemes are the only ones that their text has (`Lexeme.scan_flatMap_text`). So no
character is lost, none is added, and nothing but the text decides where a lexeme ends.

## Main results

* `Lexeme.puts_iff`: what one character does.
* `Lexeme.scan_eq_iff`: the lexemes of a text, without the scan.
* `Lexeme.lossless_and_maximal`: the same of the texts of the lexemes of a template.
-/

namespace Switchboard

/-- Whether a character belongs to a word of a template: it is neither a blank nor a bracket. -/
def inWord (c : Char) : Bool := nonblank c && c != '[' && c != ']'

/-- Blanks in a row, at least one. -/
structure IsGap (cs : List Char) : Prop where
  ne_nil : cs ≠ []
  blank : ∀ c ∈ cs, isBlank c = true

/-- Characters of a word of a template in a row, at least one. -/
structure IsRun (cs : List Char) : Prop where
  ne_nil : cs ≠ []
  inWord : ∀ c ∈ cs, inWord c = true

/-- Such characters make a word, since there are no blanks among them. -/
theorem IsRun.isWord {cs : List Char} (h : IsRun cs) : IsWord cs := by
  refine ⟨h.ne_nil, fun c hc => ?_⟩
  have hin := h.inWord c hc
  simp only [Switchboard.inWord, Bool.and_eq_true] at hin
  exact hin.1.1

/-- No text is both. -/
theorem IsGap.not_isRun {cs : List Char} (h : IsGap cs) : ¬ IsRun cs := by
  intro hrun
  obtain ⟨c, rest, rfl⟩ := List.exists_cons_of_ne_nil h.ne_nil
  have hblank := h.blank c List.mem_cons_self
  have hnonblank := hrun.isWord.nonblank c List.mem_cons_self
  simp [nonblank, hblank] at hnonblank

theorem not_isGap_of_not_blank {c : Char} (hc : isBlank c = false) : ¬ IsGap [c] := by
  intro h
  have hblank := h.blank c List.mem_cons_self
  rw [hc] at hblank
  cases hblank

theorem not_isRun_of_not_inWord {c : Char} (hc : inWord c = false) : ¬ IsRun [c] := by
  intro h
  have hin := h.inWord c List.mem_cons_self
  rw [hc] at hin
  cases hin

namespace Lexeme

/-! ### What one character does -/

/-- What putting a character in front of lexemes can do: a bracket stands alone, and any other character goes
on with the run behind it or starts a new one. -/
inductive Puts : Char → List Lexeme → List Lexeme → Prop
  | opening (ls : List Lexeme) : Puts '[' ls (.opening :: ls)
  | closing (ls : List Lexeme) : Puts ']' ls (.closing :: ls)
  | moreBlank {c : Char} (run : List Char) (ls : List Lexeme) :
      isBlank c = true → Puts c (.blank run :: ls) (.blank (c :: run) :: ls)
  | newBlank {c : Char} {ls : List Lexeme} :
      isBlank c = true → (∀ run rest, ls ≠ .blank run :: rest) → Puts c ls (.blank [c] :: ls)
  | moreWord {c : Char} (text : List Char) (ls : List Lexeme) :
      inWord c = true → Puts c (.word text :: ls) (.word (c :: text) :: ls)
  | newWord {c : Char} {ls : List Lexeme} :
      inWord c = true → (∀ text rest, ls ≠ .word text :: rest) → Puts c ls (.word [c] :: ls)

theorem puts_cons (c : Char) (ls : List Lexeme) : Puts c ls (cons c ls) := by
  by_cases hopening : c = '['
  · subst hopening
    exact .opening ls
  by_cases hclosing : c = ']'
  · subst hclosing
    exact .closing ls
  by_cases hblank : isBlank c = true
  · simp only [cons, beq_iff_eq, hopening, hclosing, hblank, if_false, if_true]
    split
    case h_1 run rest => exact .moreBlank run rest hblank
    case h_2 hnone => exact .newBlank hblank hnone
  · have hin : inWord c = true := by simp [inWord, nonblank, hblank, hopening, hclosing]
    simp only [cons, beq_iff_eq, hopening, hclosing, hblank, if_false, Bool.false_eq_true]
    split
    case h_1 text rest => exact .moreWord text rest hin
    case h_2 hnone => exact .newWord hin hnone

/-- **What one character does** in front of lexemes. -/
theorem puts_iff {c : Char} {ls more : List Lexeme} : Puts c ls more ↔ cons c ls = more := by
  constructor
  · intro h
    have hblank : ∀ {c : Char}, isBlank c = true → c ≠ '[' ∧ c ≠ ']' := by
      intro c hc
      constructor <;> (rintro rfl; exact absurd hc (by decide))
    cases h with
    | opening | closing => rfl
    | moreBlank run rest hc => simp [cons, hblank hc, hc]
    | newBlank hc hnone =>
        simp only [cons, beq_iff_eq, hblank hc, hc, if_false, if_true]
    | moreWord text rest hc =>
        simp only [inWord, nonblank, Bool.and_eq_true, Bool.not_eq_true', bne_iff_ne] at hc
        simp [cons, hc]
    | newWord hc hnone =>
        simp only [inWord, nonblank, Bool.and_eq_true, Bool.not_eq_true', bne_iff_ne] at hc
        simp only [cons, beq_iff_eq, hc, if_false, Bool.false_eq_true]
  · rintro rfl
    exact puts_cons c ls

/-! ### Whole lexemes that do not run on -/

/-- The lexeme holds what its kind says. -/
def Whole : Lexeme → Prop
  | blank run => IsGap run
  | opening | closing => True
  | word text => IsRun text

theorem Whole.text_ne_nil {l : Lexeme} (h : l.Whole) : l.text ≠ [] := by
  cases l with
  | blank run => exact IsGap.ne_nil h
  | opening | closing => exact List.cons_ne_nil _ _
  | word text => exact IsRun.ne_nil h

/-- The two lexemes are not runs of one kind. -/
def Parted : Lexeme → Lexeme → Prop
  | blank _, l => ∀ run, l ≠ blank run
  | word _, l => ∀ text, l ≠ word text
  | _, _ => True

/-- Lexemes that are whole, where a run ends before the next one of its kind. -/
structure Maximal (ls : List Lexeme) : Prop where
  whole : ∀ l ∈ ls, l.Whole
  parted : ls.IsChain Parted

theorem Maximal.tail {l : Lexeme} {ls : List Lexeme} (h : Maximal (l :: ls)) : Maximal ls :=
  ⟨fun m hm => h.whole m (List.mem_cons_of_mem l hm), h.parted.tail⟩

/-- A lexeme in front of others, when it is whole and does not run on into them. -/
theorem Maximal.cons {l : Lexeme} {ls : List Lexeme} (h : Maximal ls) (hwhole : l.Whole)
    (hparted : ∀ m ∈ ls.head?, Parted l m) : Maximal (l :: ls) :=
  ⟨List.forall_mem_cons.mpr ⟨hwhole, h.whole⟩, List.isChain_cons.mpr ⟨hparted, h.parted⟩⟩

/-- A character more leaves lexemes whole and apart. -/
theorem Maximal.put {c : Char} {ls more : List Lexeme} (h : Maximal ls) (hput : Puts c ls more) :
    Maximal more := by
  cases hput with
  | opening => exact h.cons trivial fun _ _ => trivial
  | closing => exact h.cons trivial fun _ _ => trivial
  | moreBlank run rest hc =>
      have hrun : IsGap run := h.whole _ List.mem_cons_self
      refine h.tail.cons ⟨List.cons_ne_nil c run, List.forall_mem_cons.mpr ⟨hc, hrun.blank⟩⟩ ?_
      exact (List.isChain_cons.mp h.parted).1
  | newBlank hc hnone =>
      refine h.cons ⟨List.cons_ne_nil c [], by simpa using hc⟩ ?_
      rintro m hm run rfl
      obtain ⟨rest, rfl⟩ := List.head?_eq_some_iff.mp hm
      exact hnone run rest rfl
  | moreWord text rest hc =>
      have htext : IsRun text := h.whole _ List.mem_cons_self
      refine h.tail.cons ⟨List.cons_ne_nil c text, List.forall_mem_cons.mpr ⟨hc, htext.inWord⟩⟩ ?_
      exact (List.isChain_cons.mp h.parted).1
  | newWord hc hnone =>
      refine h.cons ⟨List.cons_ne_nil c [], by simpa using hc⟩ ?_
      rintro m hm text rfl
      obtain ⟨rest, rfl⟩ := List.head?_eq_some_iff.mp hm
      exact hnone text rest rfl

/-- **The lexemes of a text** are whole, and no run could be longer. -/
theorem maximal_scan (cs : List Char) : Maximal (scan cs) := by
  induction cs with
  | nil => exact ⟨nofun, .nil⟩
  | cons c cs ih => exact ih.put (puts_cons c (scan cs))

theorem whole_of_scan {cs : List Char} {l : Lexeme} {ls : List Lexeme} (h : scan cs = l :: ls) : l.Whole :=
  (maximal_scan cs).whole l (by rw [h]; exact List.mem_cons_self)

/-- A text starts with what its first lexeme is made of. -/
theorem starts_of_scan {cs : List Char} {l : Lexeme} {ls : List Lexeme} (h : scan cs = l :: ls)
    {p : Char → Bool} (hp : ∀ c ∈ l.text, p c = true) : Starts p cs := by
  have htext := flatMap_text_scan cs
  obtain ⟨c, rest, heq⟩ := List.exists_cons_of_ne_nil (whole_of_scan h).text_ne_nil
  rw [h, List.flatMap_cons, heq, List.cons_append] at htext
  exact ⟨c, rest ++ ls.flatMap text, htext.symm, hp c (by rw [heq]; exact List.mem_cons_self)⟩

/-! ### Back from lexemes to their text -/

theorem scan_append (cs ds : List Char) : scan (cs ++ ds) = cs.foldr cons (scan ds) := List.foldr_append

/-- The characters of a run, put in front of lexemes one after the other, make one lexeme. The run is of
blanks or of a word, as `wrap` says. -/
theorem foldr_cons_run {wrap : List Char → Lexeme} {kind : Char → Bool}
    (hmore : ∀ c run ls, kind c = true → Puts c (wrap run :: ls) (wrap (c :: run) :: ls))
    (hnew : ∀ c ls, kind c = true → (∀ run rest, ls ≠ wrap run :: rest) → Puts c ls (wrap [c] :: ls))
    {run : List Char} (hne : run ≠ []) (hrun : ∀ c ∈ run, kind c = true) {ls : List Lexeme}
    (hls : ∀ run rest, ls ≠ wrap run :: rest) : run.foldr cons ls = wrap run :: ls := by
  induction run with
  | nil => exact absurd rfl hne
  | cons c run ih =>
      obtain ⟨hc, hrest⟩ := List.forall_mem_cons.mp hrun
      cases run with
      | nil => exact puts_iff.mp (hnew c ls hc hls)
      | cons d run =>
          rw [List.foldr_cons, ih (List.cons_ne_nil d run) hrest]
          exact puts_iff.mp (hmore c (d :: run) ls hc)

/-- **Lexemes are those of their text**, when they are whole and no run goes on behind its end. -/
theorem scan_flatMap_text {ls : List Lexeme} (h : Maximal ls) : scan (ls.flatMap text) = ls := by
  induction ls with
  | nil => rfl
  | cons l ls ih =>
      have hnext := (List.isChain_cons.mp h.parted).1
      rw [List.flatMap_cons, scan_append, ih h.tail]
      cases l with
      | opening | closing => rfl
      | blank run =>
          have hrun : IsGap run := h.whole _ List.mem_cons_self
          refine foldr_cons_run (fun c run ls => .moreBlank run ls) (fun c ls => .newBlank)
            hrun.ne_nil hrun.blank ?_
          rintro run rest rfl
          exact hnext _ rfl run rfl
      | word text =>
          have htext : IsRun text := h.whole _ List.mem_cons_self
          refine foldr_cons_run (fun c run ls => .moreWord run ls) (fun c ls => .newWord)
            htext.ne_nil htext.inWord ?_
          rintro run rest rfl
          exact hnext _ rfl run rfl

/-- The lexemes of a text, without the scan: they spell it, and they are whole and apart. -/
theorem scan_eq_iff {cs : List Char} {ls : List Lexeme} :
    scan cs = ls ↔ ls.flatMap text = cs ∧ Maximal ls := by
  constructor
  · rintro rfl
    exact ⟨flatMap_text_scan cs, maximal_scan cs⟩
  · rintro ⟨rfl, h⟩
    exact scan_flatMap_text h

/-! ### The texts of lexemes -/

/-- The texts of the lexemes of a template. -/
def texts (template : String) : List (List Char) := (ofText template).map text

/-- Texts that are the lexemes of a template: each is a bracket or a run of one kind, runs of one kind are not
next to each other, and blanks stand neither first nor last. -/
structure AreLexemes (ts : List (List Char)) : Prop where
  kind : ∀ t ∈ ts, t = ['['] ∨ t = [']'] ∨ IsGap t ∨ IsRun t
  parted : ts.IsChain fun t u => ¬ (IsGap t ∧ IsGap u) ∧ ¬ (IsRun t ∧ IsRun u)
  first : ∀ t ∈ ts.head?, ¬ IsGap t
  last : ∀ t ∈ ts.getLast?, ¬ IsGap t

theorem Whole.kind_text {l : Lexeme} (h : l.Whole) :
    l.text = ['['] ∨ l.text = [']'] ∨ IsGap l.text ∨ IsRun l.text := by
  cases l with
  | blank run => exact .inr (.inr (.inl h))
  | opening => exact .inl rfl
  | closing => exact .inr (.inl rfl)
  | word text => exact .inr (.inr (.inr h))

/-- Each text of such a kind is that of a whole lexeme. -/
theorem exists_whole {t : List Char} (h : t = ['['] ∨ t = [']'] ∨ IsGap t ∨ IsRun t) :
    ∃ l : Lexeme, l.text = t ∧ l.Whole := by
  rcases h with rfl | rfl | hgap | hrun
  · exact ⟨.opening, rfl, trivial⟩
  · exact ⟨.closing, rfl, trivial⟩
  · exact ⟨.blank t, rfl, hgap⟩
  · exact ⟨.word t, rfl, hrun⟩

theorem Whole.isGap_text_iff {l : Lexeme} (h : l.Whole) : IsGap l.text ↔ ∃ run, l = .blank run := by
  cases l with
  | blank run => exact iff_of_true h ⟨run, rfl⟩
  | opening | closing => exact iff_of_false (not_isGap_of_not_blank (by decide)) nofun
  | word text => exact iff_of_false (fun hgap => hgap.not_isRun h) nofun

theorem Whole.isRun_text_iff {l : Lexeme} (h : l.Whole) : IsRun l.text ↔ ∃ text, l = .word text := by
  cases l with
  | blank run => exact iff_of_false (IsGap.not_isRun h) nofun
  | opening | closing => exact iff_of_false (not_isRun_of_not_inWord (by decide)) nofun
  | word text => exact iff_of_true h ⟨text, rfl⟩

/-- Whether two whole lexemes are runs of one kind is seen from their texts. -/
theorem parted_iff {l m : Lexeme} (hl : l.Whole) (hm : m.Whole) :
    Parted l m ↔ ¬ (IsGap l.text ∧ IsGap m.text) ∧ ¬ (IsRun l.text ∧ IsRun m.text) := by
  rw [hl.isGap_text_iff, hm.isGap_text_iff, hl.isRun_text_iff, hm.isRun_text_iff]
  cases l <;> simp [Parted]

/-- Lexemes are whole and apart when their texts look like it. -/
theorem exists_maximal {ts : List (List Char)} (hkind : ∀ t ∈ ts, t = ['['] ∨ t = [']'] ∨ IsGap t ∨ IsRun t)
    (hparted : ts.IsChain fun t u => ¬ (IsGap t ∧ IsGap u) ∧ ¬ (IsRun t ∧ IsRun u)) :
    ∃ ls : List Lexeme, ls.map text = ts ∧ Maximal ls := by
  induction ts with
  | nil => exact ⟨[], rfl, nofun, .nil⟩
  | cons t ts ih =>
      obtain ⟨ht, hts⟩ := List.forall_mem_cons.mp hkind
      obtain ⟨hnext, hmore⟩ := List.isChain_cons.mp hparted
      obtain ⟨l, rfl, hl⟩ := exists_whole ht
      obtain ⟨ls, rfl, hls⟩ := ih hts hmore
      refine ⟨l :: ls, rfl, hls.cons hl fun m hm => ?_⟩
      refine (parted_iff hl (hls.whole m (List.mem_of_mem_head? hm))).mpr (hnext _ ?_)
      rw [List.head?_map, Option.mem_def.mp hm]
      rfl

/-- A text of such a kind that is no gap has no blanks at all. -/
theorem isWord_of_not_isGap {t : List Char} (h : t = ['['] ∨ t = [']'] ∨ IsGap t ∨ IsRun t)
    (hgap : ¬ IsGap t) : IsWord t := by
  have hbracket : ∀ c, nonblank c = true → IsWord [c] := fun c hc =>
    ⟨List.cons_ne_nil c [], by simpa using hc⟩
  rcases h with rfl | rfl | h | hrun
  · exact hbracket _ (by decide)
  · exact hbracket _ (by decide)
  · exact absurd h hgap
  · exact hrun.isWord

/-- **Texts of lexemes have nothing to trim.** -/
theorem AreLexemes.trim_flatten {ts : List (List Char)} (h : AreLexemes ts) : trim ts.flatten = ts.flatten := by
  refine trim_eq_self_iff.mpr ⟨?_, ?_⟩
  · cases ts with
    | nil => exact not_starts_nil isBlank
    | cons t ts =>
        have ht := isWord_of_not_isGap (h.kind t List.mem_cons_self) (h.first t rfl)
        exact ht.not_starts_blank ts.flatten
  · rcases List.eq_nil_or_concat ts with rfl | ⟨front, t, rfl⟩
    · exact endsTight_nil
    · have ht := isWord_of_not_isGap (h.kind t (by simp)) (h.last t (by simp))
      have hend : EndsTight (t ++ []) := (endsTight_word_append ht []).mpr endsTight_nil
      rw [List.append_nil] at hend
      rw [List.concat_eq_append, List.flatten_append, List.flatten_singleton]
      exact (endsTight_append ht.ne_nil).mpr hend

theorem flatten_texts (template : String) : (texts template).flatten = trim template.toList :=
  flatMap_text_scan (trim template.toList)

theorem areLexemes_texts (template : String) : AreLexemes (texts template) := by
  have hmaximal : Maximal (ofText template) := maximal_scan _
  have hflatten := flatten_texts template
  refine ⟨?_, ?_, fun t ht hgap => ?_, fun t ht hgap => ?_⟩
  · exact List.forall_mem_map.mpr fun l hl => (hmaximal.whole l hl).kind_text
  · refine (List.isChain_map text).mpr (hmaximal.parted.imp_of_mem_imp fun l m hl hm hparted => ?_)
    exact (parted_iff (hmaximal.whole l hl) (hmaximal.whole m hm)).mp hparted
  · obtain ⟨rest, hrest⟩ := List.head?_eq_some_iff.mp ht
    obtain ⟨c, run, rfl⟩ := List.exists_cons_of_ne_nil hgap.ne_nil
    rw [hrest] at hflatten
    refine not_starts_trim template.toList ?_
    rw [← hflatten]
    exact ⟨c, run ++ rest.flatten, rfl, hgap.blank c List.mem_cons_self⟩
  · obtain ⟨front, hfront⟩ := List.getLast?_eq_some_iff.mp ht
    rw [hfront, List.flatten_append, List.flatten_singleton] at hflatten
    have hend := endsTight_trim template.toList
    rw [← hflatten, endsTight_append hgap.ne_nil] at hend
    exact not_endsTight_of_blank hgap.ne_nil hgap.blank hend

/-- **Lexemes are lossless and maximal.** The texts of the lexemes of a template give back the template without
the blanks at its ends. Each is a bracket, or a run of blanks or of other characters which is as long as it
can be. And there is no other way to take a text apart like this: texts that look like lexemes are the
lexemes of what they make together. -/
theorem lossless_and_maximal (template : String) (ts : List (List Char)) :
    (texts template).flatten = trim template.toList ∧ AreLexemes (texts template) ∧
      (texts (String.ofList ts.flatten) = ts ↔ AreLexemes ts) := by
  refine ⟨flatten_texts template, areLexemes_texts template, fun h => ?_, fun h => ?_⟩
  · rw [← h]
    exact areLexemes_texts _
  · obtain ⟨ls, rfl, hls⟩ := exists_maximal h.kind h.parted
    rw [texts, ofText, String.toList_ofList, h.trim_flatten]
    exact congrArg (List.map text) (scan_flatMap_text hls)

example : (texts " karma\t[for] :key").map String.ofList = ["karma", "\t", "[", "for", "]", " ", ":key"] := by
  decide

end Lexeme

end Switchboard
