import Switchboard.Proofs.Pattern.Greedy
import Switchboard.Proofs.Template.Alignment

/-!
# Matching Follows the Preferred Alignment

The pattern of a template of words alone is run behind a word of the message, and what is left of
the message starts with a blank or is empty. Then its ways can be followed part by part. The
blanks in front of a word are passed as a whole, and so is the word, since no part of the pattern
can go on inside them: no backtracking into blanks or words has a result (`stops_tailWays`). All
that is left to choose is whether an optional parameter takes the next word, and the first choice
that leads to the end of the message is the preferred alignment.

A way through the pattern may also end in front of a line feed, and could then hide others that
reach the end of the message. It does not: when the words that are left have an alignment, and the
parts behind the present one fit the first of them, they fit all of them
(`exists_aligned_of_crossing`).

## Main results

* `takeWays_of_takes`, `takeWays_of_not_takes`: how a part takes a word.
* `followsPreferred`: the first way reaches the end of the message exactly when its words have an
  alignment, and it captures what the preferred one takes.
-/

namespace Switchboard

open Pattern

/-! ### The ways through parts -/

/-- A part of a template in which each parameter stands for one word, and has no suffix when it
has a default. -/
def Part.Plain : Part → Prop
  | .literal text => IsWord text
  | .parameter _ extent optional suffix =>
      extent = .word ∧ (optional = true → suffix = []) ∧ ∀ c ∈ suffix, nonblank c = true

/-- Whether a part may be skipped. -/
def Part.isOptional : Part → Bool
  | .literal _ => false
  | .parameter _ _ optional _ => optional

/-- A run of blanks in a pattern. -/
def blankRun : Expr := .rep (.set blankSet) 1 none false

/-- A captured word in a pattern. -/
def wordGroup (g : Nat) : Expr := .group (g + 1) (.rep (.set Extent.wordSet) 1 none false)

theorem contains_blankSet : blankSet.contains = isBlank := by
  funext c
  simp [blankSet, CharSet.contains, ClassItem.holds, CharKind.holds]

theorem contains_wordSet : Extent.wordSet.contains = nonblank := by
  funext c
  simp [Extent.wordSet, CharSet.contains, ClassItem.holds, CharKind.holds, nonblank]

/-- The ways through a part behind the blanks, when it takes a word. -/
def bodyWays (g : Nat) : Part → State → List State
  | .literal text, st => waysAll (text.map fun c => .set (.only c)) st
  | .parameter _ _ _ suffix, st =>
      ((wordGroup g).ways st).flatMap (waysAll (suffix.map fun c => .set (.only c)))

/-- The ways through a part, when it takes a word. -/
def takeWays (g : Nat) (part : Part) (st : State) : List State :=
  (blankRun.ways st).flatMap (bodyWays g part)

/-- The ways through parts to the end of a line. -/
def tailWays (g : Nat) (parts : List Part) : State → List State :=
  waysAll ((partsPieces true g parts).map (·.expr) ++ [.anchor .lineEnd])

theorem tailWays_nil (g : Nat) (st : State) :
    tailWays g [] st = if Anchor.lineEnd.holds st then [st] else [] :=
  waysAll_singleton _ st

/-- The ways through a part, with or without blanks in front of it: those on which it takes a word,
and, when it may be skipped, the one on which it does not. -/
theorem waysAll_pieces_lead {part : Part} (hpart : part.Plain) (lead : Bool) (g : Nat)
    (st : State) :
    waysAll ((part.pieces lead g).map (·.expr)) st =
      (waysAll ((leadPieces lead).map (·.expr)) st).flatMap (bodyWays g part) ++
        if part.isOptional then [st] else [] := by
  have htexts : ∀ text, (literalPieces text).map (·.expr) = text.map fun c => .set (.only c) := by
    intro text
    simp [literalPieces]
  cases part with
  | literal text =>
      rw [Part.pieces, List.map_append, htexts, waysAll_append]
      exact (List.append_nil _).symm
  | parameter name extent optional suffix =>
      obtain ⟨rfl, hsuffix, -⟩ := hpart
      have hgroup : (Part.groupPieces lead .word g).map (·.expr) =
          (leadPieces lead).map (·.expr) ++ [wordGroup g] := by
        simp only [Part.groupPieces, List.map_append]
        rfl
      cases optional with
      | false =>
          have hpieces : ((Part.parameter name .word false suffix).pieces lead g).map (·.expr) =
              (leadPieces lead).map (·.expr) ++
                (wordGroup g :: suffix.map fun c => .set (.only c)) := by
            simp only [Part.pieces, Bool.false_eq_true, if_false, List.map_append, hgroup, htexts,
              List.append_assoc, List.singleton_append]
          rw [hpieces, waysAll_append]
          exact (List.append_nil _).symm
      | true =>
          obtain rfl := hsuffix rfl
          have hpieces : ((Part.parameter name .word true []).pieces lead g).map (·.expr) =
              [.rep (.seqAll ((leadPieces lead).map (·.expr) ++ [wordGroup g])) 0 (some 1)
                false] := by
            rw [← hgroup]
            rfl
          rw [hpieces, waysAll_singleton, Expr.ways_optional, Expr.ways_seqAll, waysAll_append]
          rfl

/-- The ways through a part behind blanks. -/
theorem waysAll_pieces {part : Part} (hpart : part.Plain) (g : Nat) (st : State) :
    waysAll ((part.pieces true g).map (·.expr)) st =
      takeWays g part st ++ if part.isOptional then [st] else [] := by
  have hlead : waysAll ((leadPieces true).map (·.expr)) st = blankRun.ways st :=
    waysAll_singleton blankRun st
  rw [waysAll_pieces_lead hpart, hlead, takeWays]

/-- The ways through parts are those through the first and then the others, and those through
the others alone when the first may be skipped. -/
theorem tailWays_cons {part : Part} (hpart : part.Plain) (g : Nat) (parts : List Part)
    (st : State) :
    tailWays g (part :: parts) st =
      (takeWays g part st).flatMap (tailWays (g + part.groups) parts) ++
        if part.isOptional then tailWays (g + part.groups) parts st else [] := by
  have hsplit : tailWays g (part :: parts) st =
      (waysAll ((part.pieces true g).map (·.expr)) st).flatMap
        (tailWays (g + part.groups) parts) := by
    rw [tailWays, partsPieces, List.map_append, List.append_assoc, waysAll_append]
    rfl
  rw [hsplit, waysAll_pieces hpart, List.flatMap_append]
  cases part.isOptional <;> simp

/-! ### No way goes on inside a word or inside blanks -/

theorem takeWays_of_nonblank (g : Nat) (part : Part) {st : State} (h : ¬ Starts isBlank st.after) :
    takeWays g part st = [] := by
  rw [← contains_blankSet] at h
  rw [takeWays, blankRun, Expr.ways_plus_of_not_starts h, List.flatMap_nil]

/-- **No way goes on inside a word**: behind a part comes a blank, or the end of a line. -/
theorem stops_tailWays {parts : List Part} (hparts : ∀ part ∈ parts, part.Plain) (g : Nat) :
    Stops nonblank (tailWays g parts) := by
  intro st c rest hafter hc
  have hstart : ¬ Starts isBlank st.after := by
    rw [hafter, starts_cons]
    simpa [nonblank] using hc
  induction parts generalizing g with
  | nil =>
      have hline : Anchor.lineEnd.holds st = false := by
        have hne : c ≠ '\n' := by
          rintro rfl
          exact absurd hc (by decide)
        simp [Anchor.holds, hafter, hne]
      rw [tailWays_nil, hline]
      rfl
  | cons part parts ih =>
      have htail := ih (fun p hp => hparts p (List.mem_cons_of_mem part hp))
      rw [tailWays_cons (hparts part List.mem_cons_self), takeWays_of_nonblank g part hstart,
        htail]
      simp

/-- A part takes nothing where no word starts. -/
theorem bodyWays_of_not_starts {part : Part} (hpart : part.Plain) (g : Nat) {st : State}
    (h : ¬ Starts nonblank st.after) : bodyWays g part st = [] := by
  cases part with
  | literal text =>
      rw [bodyWays, waysAll_literal, if_neg]
      rintro ⟨rest, hrest⟩
      obtain ⟨c, text, rfl⟩ := List.exists_cons_of_ne_nil hpart.ne_nil
      exact h ⟨c, text ++ rest, hrest.symm, hpart.nonblank c List.mem_cons_self⟩
  | parameter name extent optional suffix =>
      rw [← contains_wordSet] at h
      rw [bodyWays, wordGroup, Expr.ways, Expr.ways_plus_of_not_starts h]
      rfl

/-! ### How a part takes a word -/

/-- What has been captured once parameters have taken something, when so many groups come before
theirs. -/
def recorded : Nat → Takings → List (Nat × List Char) → List (Nat × List Char)
  | _, [], captures => captures
  | g, (_, some value) :: b, captures => recorded (g + 1) b ((g + 1, value) :: captures)
  | g, (_, none) :: b, captures => recorded (g + 1) b captures

theorem recorded_append (g : Nat) (b bs : Takings) (captures : List (Nat × List Char)) :
    recorded g (b ++ bs) captures = recorded (g + b.length) bs (recorded g b captures) := by
  induction b generalizing g captures with
  | nil => rfl
  | cons entry b ih =>
      obtain ⟨name, taken⟩ := entry
      cases taken <;> simp [recorded, ih, Nat.add_assoc, Nat.add_comm 1]

/-- A part takes as much as it has groups. -/
theorem Part.Takes.length_eq {part : Part} {w : List Char} {b : Takings} (h : part.Takes w b) :
    b.length = part.groups := by
  cases h <;> rfl

section

variable {part : Part} {ways : State → List State} (hstops : Stops nonblank ways)
  {w rest : List Char} (hw : IsWord w) (hrest : ¬ Starts nonblank rest)

include hstops hw hrest

/-- A part that takes the word that comes next has one way, over all of it. -/
theorem bodyWays_of_takes {b : Takings} (htakes : part.Takes w b) (g : Nat) (before : List Char)
    (captures : List (Nat × List Char)) :
    (bodyWays g part { before, after := w ++ rest, captures }).flatMap ways =
      ways { before := w.reverse ++ before, after := rest, captures := recorded g b captures } := by
  rw [← contains_wordSet] at hstops hrest
  have hword : ∀ c ∈ w, Extent.wordSet.contains c = true := by
    rw [contains_wordSet]
    exact hw.nonblank
  cases htakes with
  | literal =>
      rw [bodyWays, flatMap_literal_of_stops hstops hword hrest hword, if_pos rfl]
      rfl
  | @word name optional value suffix hvalue =>
      have hsuffix : ∀ c ∈ suffix, Extent.wordSet.contains c = true :=
        fun c hc => hword c (List.mem_append_right value hc)
      rw [bodyWays, wordGroup, List.flatMap_assoc]
      exact flatMap_value_of_divides hstops hsuffix hrest hvalue
        (fun c hc => hword c (List.mem_append_left suffix hc)) before captures (g + 1)

/-- A part that does not take the word that comes next has no way on. -/
theorem bodyWays_of_not_takes (hpart : part.Plain) (htakes : ¬ ∃ b, part.Takes w b) (g : Nat)
    (before : List Char) (captures : List (Nat × List Char)) :
    (bodyWays g part { before, after := w ++ rest, captures }).flatMap ways = [] := by
  rw [← contains_wordSet] at hstops hrest
  have hword : ∀ c ∈ w, Extent.wordSet.contains c = true := by
    rw [contains_wordSet]
    exact hw.nonblank
  cases part with
  | literal text =>
      have htext : ∀ c ∈ text, Extent.wordSet.contains c = true := by
        rw [contains_wordSet]
        exact hpart.nonblank
      rw [bodyWays, flatMap_literal_of_stops hstops htext hrest hword, if_neg]
      rintro rfl
      exact htakes ⟨[], .literal w⟩
  | parameter name extent optional suffix =>
      obtain ⟨rfl, -, hsuffix⟩ := hpart
      rw [← contains_wordSet] at hsuffix
      rw [bodyWays, wordGroup, List.flatMap_assoc]
      refine flatMap_value_of_not_divides hstops hsuffix hrest hword ?_ before captures (g + 1)
      rintro value hvalue rfl
      exact htakes ⟨_, .word hvalue⟩

end

section

variable {part : Part} (hpart : part.Plain) (ways : State → List State) (g : Nat)
  (before : List Char) (captures : List (Nat × List Char))

include hpart

/-- The blanks in front of a word are passed as a whole. -/
theorem takeWays_of_blanks {gap : List Char} (hgap : gap ≠ [])
    (hblank : ∀ c ∈ gap, isBlank c = true) {after : List Char} (hafter : ¬ Starts isBlank after) :
    (takeWays g part { before, after := gap ++ after, captures }).flatMap ways =
      (bodyWays g part { before := gap.reverse ++ before, after, captures }).flatMap ways := by
  have hstops : Stops blankSet.contains fun st => (bodyWays g part st).flatMap ways := by
    rw [contains_blankSet]
    intro st c rest hst hc
    have hbody : bodyWays g part st = [] :=
      bodyWays_of_not_starts hpart g (by rw [hst, starts_cons]; simp [nonblank, hc])
    simp [hbody]
  rw [← contains_blankSet] at hblank hafter
  rw [takeWays, List.flatMap_assoc]
  exact flatMap_plus_of_stops hstops hgap hblank hafter

/-- A part takes nothing where there is no word. -/
theorem takeWays_of_blank {after : List Char} (h : ∀ c ∈ after, isBlank c = true) :
    (takeWays g part { before, after, captures }).flatMap ways = [] := by
  by_cases hne : after = []
  · subst hne
    rw [takeWays_of_nonblank g part (not_starts_nil _), List.flatMap_nil]
  · have hpass := takeWays_of_blanks hpart ways g before captures hne h (not_starts_nil _)
    rw [List.append_nil] at hpass
    rw [hpass, bodyWays_of_not_starts hpart g (not_starts_nil _), List.flatMap_nil]

variable {ways} (hstops : Stops nonblank ways) {after gap w rest : List Char}
  (hnext : NextWord after gap w rest)

include hstops hnext

/-- **Taking a word**: the way goes on behind it. -/
theorem takeWays_of_takes {b : Takings} (htakes : part.Takes w b) :
    (takeWays g part { before, after, captures }).flatMap ways =
      ways { before := w.reverse ++ (gap.reverse ++ before), after := rest,
             captures := recorded g b captures } := by
  rw [hnext.eq_append, takeWays_of_blanks hpart ways g before captures hnext.gap_ne_nil
    hnext.gap_blank (hnext.isWord.not_starts_blank rest)]
  exact bodyWays_of_takes hstops hnext.isWord hnext.not_starts htakes g _ captures

/-- **Not taking a word**: there is no way. -/
theorem takeWays_of_not_takes (htakes : ¬ ∃ b, part.Takes w b) :
    (takeWays g part { before, after, captures }).flatMap ways = [] := by
  rw [hnext.eq_append, takeWays_of_blanks hpart ways g before captures hnext.gap_ne_nil
    hnext.gap_blank (hnext.isWord.not_starts_blank rest)]
  exact bodyWays_of_not_takes hstops hnext.isWord hnext.not_starts hpart htakes g _ captures

end

/-! ### The first way -/

/-- The first of the ways reaches the end of the text, with these captures. -/
def Whole (ways : List State) (captures : List (Nat × List Char)) : Prop :=
  ∃ st, ways.head? = some st ∧ st.after = [] ∧ st.captures = captures

theorem not_whole_nil (captures : List (Nat × List Char)) : ¬ Whole [] captures := by
  rintro ⟨st, hst, -⟩
  cases hst

/-- The first of the ways is one of the earlier, unless there are none. -/
theorem whole_append_iff {earlier later : List State} {captures : List (Nat × List Char)} :
    Whole (earlier ++ later) captures ↔
      Whole earlier captures ∨ earlier = [] ∧ Whole later captures := by
  cases earlier with
  | nil => simp [not_whole_nil]
  | cons st earlier => simp [Whole]

/-- A plain part that may be skipped is a parameter for one word. -/
theorem Part.Plain.eq_of_isOptional {part : Part} (h : part.Plain)
    (hoptional : part.isOptional = true) : ∃ name, part = .parameter name .word true [] := by
  cases part with
  | literal text => cases hoptional
  | parameter name extent optional suffix =>
      obtain ⟨rfl, hsuffix, -⟩ := h
      obtain rfl : optional = true := hoptional
      exact ⟨name, by rw [hsuffix rfl]⟩

/-- A way through a part on which it takes a word. -/
theorem exists_takes_of_takeWays_ne_nil {part : Part} (hpart : part.Plain)
    {ways : State → List State} (hstops : Stops nonblank ways) {g : Nat} {before after : List Char}
    {captures : List (Nat × List Char)} (hafter : ¬ Starts nonblank after)
    (h : (takeWays g part { before, after, captures }).flatMap ways ≠ []) :
    ∃ gap w rest b, NextWord after gap w rest ∧ part.Takes w b := by
  rcases blank_or_nextWord hafter with hblank | ⟨gap, w, rest, hnext⟩
  · exact absurd (takeWays_of_blank hpart ways g before captures hblank) h
  · by_cases htakes : ∃ b, part.Takes w b
    · obtain ⟨b, hb⟩ := htakes
      exact ⟨gap, w, rest, b, hnext, hb⟩
    · exact absurd (takeWays_of_not_takes hpart g before captures hstops hnext htakes) h

/-- A way to the end of some line has aligned the parts with some words. -/
theorem exists_aligned_of_tailWays_ne_nil {parts : List Part}
    (hparts : ∀ part ∈ parts, part.Plain) {g : Nat} {before after : List Char}
    {captures : List (Nat × List Char)} (hafter : ¬ Starts nonblank after)
    (h : tailWays g parts { before, after, captures } ≠ []) :
    ∃ front back b, words after = front ++ back ∧ Aligned parts front b := by
  induction parts generalizing g before after captures with
  | nil => exact ⟨[], words after, [], rfl, .nil⟩
  | cons part parts ih =>
      have hpart := hparts part List.mem_cons_self
      have htail : ∀ p ∈ parts, p.Plain := fun p hp => hparts p (List.mem_cons_of_mem part hp)
      have hstops := stops_tailWays htail (g + part.groups)
      rw [tailWays_cons hpart] at h
      by_cases htake : (takeWays g part { before, after, captures }).flatMap
          (tailWays (g + part.groups) parts) = []
      · cases hoptional : part.isOptional with
        | false => simp [htake, hoptional] at h
        | true =>
            obtain ⟨name, rfl⟩ := hpart.eq_of_isOptional hoptional
            rw [htake, hoptional] at h
            obtain ⟨front, back, b, hwords, hfront⟩ := ih htail hafter h
            exact ⟨front, back, _, hwords, .skips hfront⟩
      · obtain ⟨gap, w, rest, b, hnext, htakes⟩ :=
          exists_takes_of_takeWays_ne_nil hpart hstops hafter htake
        rw [takeWays_of_takes hpart g before captures hstops hnext htakes] at htake
        obtain ⟨front, back, bs, hwords, hfront⟩ := ih htail hnext.not_starts htake
        refine ⟨w :: front, back, b ++ bs, ?_, .takes htakes hfront⟩
        rw [hnext.words_eq, hwords, List.cons_append]

/-- The first way through no parts. -/
theorem whole_tailWays_nil {g : Nat} {st : State} {captures : List (Nat × List Char)} :
    Whole (tailWays g [] st) captures ↔ st.after = [] ∧ captures = st.captures := by
  rw [tailWays_nil]
  constructor
  · rintro ⟨st', hst', hafter, rfl⟩
    split at hst'
    · obtain rfl := Option.some.inj hst'
      exact ⟨hafter, rfl⟩
    · cases hst'
  · rintro ⟨hafter, rfl⟩
    have hholds : Anchor.lineEnd.holds st = true := by simp [Anchor.holds, hafter]
    exact ⟨st, by rw [hholds]; rfl, hafter, rfl⟩

/-- The first way through the parts is the preferred alignment: behind a word of a message, it
reaches the end of the message exactly when no blanks are left over there and the words that are
left have an alignment, and it has captured what the preferred one takes. -/
def FollowsPreferred (g : Nat) (parts : List Part) : Prop :=
  ∀ {before after : List Char} {captures result : List (Nat × List Char)},
    ¬ Starts nonblank after →
    (Whole (tailWays g parts { before, after, captures }) result ↔
      EndsTight after ∧ ∃ b, Preferred parts (words after) b ∧ result = recorded g b captures)

theorem followsPreferred_nil (g : Nat) : FollowsPreferred g [] := by
  intro before after captures result _
  rw [whole_tailWays_nil]
  constructor
  · rintro ⟨rfl, rfl⟩
    exact ⟨endsTight_nil, [], .nil, rfl⟩
  · rintro ⟨hend, b, hb, rfl⟩
    generalize hwords : words after = ws at hb
    cases hb
    exact ⟨eq_nil_of_words_eq_nil hwords hend, rfl⟩

section

variable {part : Part} {parts : List Part} (hparts : ∀ p ∈ part :: parts, p.Plain) {g : Nat}
  (htail : FollowsPreferred (g + part.groups) parts) {before after : List Char}
  {captures : List (Nat × List Char)} (hafter : ¬ Starts nonblank after)

include hparts htail hafter

/-- What the first way has captured is what the preferred alignment takes. -/
theorem preferred_of_whole {result : List (Nat × List Char)}
    (h : Whole (tailWays g (part :: parts) { before, after, captures }) result) :
    EndsTight after ∧
      ∃ b, Preferred (part :: parts) (words after) b ∧ result = recorded g b captures := by
  obtain ⟨hpart, hothers⟩ := List.forall_mem_cons.mp hparts
  have hstops := stops_tailWays hothers (g + part.groups)
  rw [tailWays_cons hpart, whole_append_iff] at h
  rcases h with htake | ⟨hnone, hskip⟩
  · -- the part has taken the next word, and the rest has gone well
    have hne : (takeWays g part { before, after, captures }).flatMap
        (tailWays (g + part.groups) parts) ≠ [] := by
      intro hnil
      exact not_whole_nil result (hnil ▸ htake)
    obtain ⟨gap, w, rest, b, hnext, htakes⟩ :=
      exists_takes_of_takeWays_ne_nil hpart hstops hafter hne
    rw [takeWays_of_takes hpart g before captures hstops hnext htakes,
      htail hnext.not_starts] at htake
    obtain ⟨hend, bs, hbs, rfl⟩ := htake
    refine ⟨hnext.endsTight_iff.mpr hend, b ++ bs, ?_, ?_⟩
    · rw [hnext.words_eq]
      exact .takes htakes hbs
    · rw [recorded_append, htakes.length_eq]
  · -- the part has been skipped, because no way on which it takes a word was found
    cases hoptional : part.isOptional with
    | false => exact absurd (by simpa [hoptional] using hskip) (not_whole_nil result)
    | true =>
        obtain ⟨name, rfl⟩ := hpart.eq_of_isOptional hoptional
        rw [if_pos hoptional, htail hafter] at hskip
        obtain ⟨hend, bs, hbs, rfl⟩ := hskip
        refine ⟨hend, (name, none) :: bs, .skips ?_ hbs, rfl⟩
        rintro ⟨w, ws, b, bs', hwords, htakes, haligned⟩
        obtain ⟨gap, rest, hnext, rfl⟩ := exists_nextWord_of_words_eq hafter hwords
        obtain ⟨bs'', hpreferred⟩ := exists_preferred_iff.mpr ⟨bs', haligned⟩
        rw [takeWays_of_takes hpart g before captures hstops hnext htakes] at hnone
        refine not_whole_nil (recorded (g + 1) bs'' (recorded g b captures)) ?_
        rw [← hnone]
        exact (htail hnext.not_starts).mpr ⟨hnext.endsTight_iff.mp hend, bs'', hpreferred, rfl⟩

/-- The preferred alignment is found first. -/
theorem whole_of_preferred {b : Takings} (hend : EndsTight after)
    (hb : Preferred (part :: parts) (words after) b) :
    Whole (tailWays g (part :: parts) { before, after, captures }) (recorded g b captures) := by
  obtain ⟨hpart, hothers⟩ := List.forall_mem_cons.mp hparts
  have hstops := stops_tailWays hothers (g + part.groups)
  rw [tailWays_cons hpart, whole_append_iff]
  generalize hwords : words after = ws at hb
  cases hb with
  | @takes _ _ w ws b bs htakes hbs =>
      obtain ⟨gap, rest, hnext, rfl⟩ := exists_nextWord_of_words_eq hafter hwords
      refine .inl ?_
      rw [takeWays_of_takes hpart g before captures hstops hnext htakes,
        htail hnext.not_starts, recorded_append, htakes.length_eq]
      exact ⟨hnext.endsTight_iff.mp hend, bs, hbs, rfl⟩
  | @skips name _ ws bs hcannot hbs =>
      refine .inr ⟨?_, (htail hafter).mpr ⟨hend, bs, hwords ▸ hbs, rfl⟩⟩
      -- a way that takes the word and ends early would make an alignment that takes it
      by_contra hne
      obtain ⟨gap, w, rest, b, hnext, htakes⟩ :=
        exists_takes_of_takeWays_ne_nil hpart hstops hafter hne
      rw [takeWays_of_takes hpart g before captures hstops hnext htakes] at hne
      obtain ⟨front, back, b₁, hrest, hfront⟩ :=
        exists_aligned_of_tailWays_ne_nil hothers hnext.not_starts hne
      have hws : ws = w :: (front ++ back) := by
        rw [← hwords, hnext.words_eq, hrest]
      obtain ⟨b₂, hall⟩ :=
        exists_aligned_of_crossing hfront hbs.aligned (hws ▸ List.suffix_cons w _)
      exact hcannot ⟨w, front ++ back, b, b₂, hws, htakes, hall⟩

end

/-- **The first way is the preferred alignment**, for all plain parts. -/
theorem followsPreferred {parts : List Part} (hparts : ∀ part ∈ parts, part.Plain) (g : Nat) :
    FollowsPreferred g parts := by
  induction parts generalizing g with
  | nil => exact followsPreferred_nil g
  | cons part parts ih =>
      have htail : FollowsPreferred (g + part.groups) parts :=
        ih (fun p hp => hparts p (List.mem_cons_of_mem part hp)) _
      intro before after captures result hafter
      constructor
      · exact preferred_of_whole hparts htail hafter
      · rintro ⟨hend, b, hb, rfl⟩
        exact whole_of_preferred hparts htail hafter hend hb

end Switchboard
