import Switchboard.Proofs.Template.Recognition

/-!
# The Rest of a Line

A template of words may end in a parameter `*name`, which takes what is left of the message. Behind the
word in front of it comes a run of blanks, and the run can go over line feeds; the parameter itself
stops at the first of them. So what it takes is a text without line feeds and without blanks at its
start, though it may be empty or end with blanks.

The words in front of it cannot be divided in another way, since no way goes on inside a word. The
run of blanks gives nothing back either: from behind all of it there is a way to the end of the line,
and this is the first way. If that is not the end of the message, the message is not recognized,
although a later way may be longer.

## Main results

* `whole_followWays_iff`: required parts take one word each, and what is left goes to what follows.
* `whole_restWays_iff`: what the last parameter takes of this.
* `Template.recognize_iff_remainder`: which messages are recognized, and with which arguments.
-/

namespace Switchboard

open Pattern

namespace Pattern

/-! ### Greedy runs that may be empty -/

/-- A greedy run of any number of characters: from the longest run to none at all. -/
theorem Expr.ways_star_set (s : CharSet) (st : State) :
    (Expr.rep (.set s) 0 none false).ways st =
      (List.range ((st.after.takeWhile s.contains).length + 1)).reverse.map st.advance := by
  have hnone : roundWays (fun st => (Expr.set s).ways st) 0 st = [st] := rfl
  rw [Expr.ways, hnone, List.flatMap_singleton, Option.map_none,
    moreWays_set s (Nat.lt_succ_self _) (by simp)]

/-- The longest run comes first. -/
theorem exists_ways_star {s : CharSet} {run rest : List Char} (hrun : ∀ c ∈ run, s.contains c = true)
    (hrest : ¬ Starts s.contains rest) (before : List Char) (captures : List (Nat × List Char)) :
    ∃ later, (Expr.rep (.set s) 0 none false).ways { before, after := run ++ rest, captures } =
      { before := run.reverse ++ before, after := rest, captures } :: later := by
  rw [Expr.ways_star_set, takeWhile_append_of_not_starts hrun hrest, List.range_succ,
    List.reverse_append, List.reverse_singleton, List.singleton_append, List.map_cons,
    State.advance_append]
  exact ⟨_, rfl⟩

/-- The longest run of at least one character comes first. -/
theorem exists_ways_plus {s : CharSet} {run rest : List Char} (hne : run ≠ [])
    (hrun : ∀ c ∈ run, s.contains c = true) (hrest : ¬ Starts s.contains rest) (before : List Char)
    (captures : List (Nat × List Char)) :
    ∃ later, (Expr.rep (.set s) 1 none false).ways { before, after := run ++ rest, captures } =
      { before := run.reverse ++ before, after := rest, captures } :: later := by
  obtain ⟨n, hn⟩ := Nat.exists_eq_succ_of_ne_zero (mt List.length_eq_zero_iff.mp hne)
  rw [Expr.ways_plus_set, takeWhile_append_of_not_starts hrun hrest, hn, List.range_succ,
    List.reverse_append, List.reverse_singleton, List.singleton_append, List.map_cons,
    ← Nat.succ_eq_add_one, ← hn, State.advance_append]
  exact ⟨_, rfl⟩

end Pattern

/-- A text falls into its first line and the rest. -/
theorem exists_line_append (cs : List Char) :
    ∃ line rest, cs = line ++ rest ∧ '\n' ∉ line ∧ (rest = [] ∨ ∃ more, rest = '\n' :: more) := by
  induction cs with
  | nil => exact ⟨[], [], rfl, by simp, .inl rfl⟩
  | cons c cs ih =>
      by_cases hc : c = '\n'
      · exact ⟨[], c :: cs, rfl, by simp, .inr ⟨cs, by rw [hc]⟩⟩
      · obtain ⟨line, rest, rfl, hline, hrest⟩ := ih
        exact ⟨c :: line, rest, rfl, by simpa [Ne.symm hc] using hline, hrest⟩

/-- Blanks come next or nothing does, where no word goes on. -/
theorem exists_gap_append {cs : List Char} (h : ¬ Starts nonblank cs) :
    cs = [] ∨ ∃ gap rest, cs = gap ++ rest ∧ gap ≠ [] ∧ (∀ c ∈ gap, isBlank c = true) ∧
      ¬ Starts isBlank rest := by
  rcases blank_or_nextWord h with hblank | ⟨gap, w, rest, hnext⟩
  · by_cases hcs : cs = []
    · exact .inl hcs
    · exact .inr ⟨cs, [], (List.append_nil cs).symm, hcs, hblank, not_starts_nil isBlank⟩
  · exact .inr ⟨gap, w ++ rest, hnext.eq_append, hnext.gap_ne_nil, hnext.gap_blank,
      hnext.isWord.not_starts_blank rest⟩

/-- A front of a text starts with what the text starts with. -/
theorem not_starts_left {p : Char → Bool} {cs ds : List Char} (h : ¬ Starts p (cs ++ ds)) :
    ¬ Starts p cs := by
  rintro ⟨c, rest, rfl, hc⟩
  exact h ⟨c, rest ++ ds, rfl, hc⟩

/-! ### Parts that take one word each -/

/-- The first way may come from the first of several beginnings. -/
theorem whole_flatMap_cons_iff {st : State} {later : List State} {ways : State → List State}
    {captures : List (Nat × List Char)} (hne : ways st ≠ []) :
    Whole ((st :: later).flatMap ways) captures ↔ Whole (ways st) captures := by
  rw [List.flatMap_cons, whole_append_iff]
  simp [hne]

/-- The ways through parts behind blanks, and on. -/
def followWays (g : Nat) (parts : List Part) (ways : State → List State) (st : State) : List State :=
  (waysAll ((partsPieces true g parts).map (·.expr)) st).flatMap ways

/-- A part that takes one word, and may not be left out. -/
structure Part.Mandatory (part : Part) : Prop where
  plain : part.Plain
  not_optional : part.isOptional = false

theorem followWays_cons {part : Part} (hpart : part.Mandatory) (g : Nat) (parts : List Part)
    (ways : State → List State) (st : State) :
    followWays g (part :: parts) ways st =
      (takeWays g part st).flatMap (followWays (g + part.groups) parts ways) := by
  rw [followWays, partsPieces, List.map_append, waysAll_append, waysAll_pieces hpart.plain,
    hpart.not_optional, if_neg Bool.false_ne_true, List.append_nil, List.flatMap_assoc]
  rfl

/-- No way through the parts goes on inside a word, when none behind them does. -/
theorem stops_followWays {ways : State → List State} (hstops : Stops nonblank ways) (g : Nat)
    {parts : List Part} (hparts : ∀ part ∈ parts, part.Mandatory) :
    Stops nonblank (followWays g parts ways) := by
  cases parts with
  | nil =>
      intro st c rest hafter hc
      simpa [followWays, partsPieces, waysAll] using hstops st c rest hafter hc
  | cons part parts =>
      intro st c rest hafter hc
      have hstart : ¬ Starts isBlank st.after := by
        rw [hafter, starts_cons]
        simpa [nonblank] using hc
      rw [followWays_cons (hparts part List.mem_cons_self), takeWays_of_nonblank g part hstart,
        List.flatMap_nil]

/-- **Each part takes a word.** The first way through the parts takes the first words of what comes
next, one for each part, and goes on from there. -/
theorem whole_followWays_iff {parts : List Part} (hparts : ∀ part ∈ parts, part.Mandatory)
    {ways : State → List State} (hstops : Stops nonblank ways) {g : Nat} {before after : List Char}
    {captures result : List (Nat × List Char)} (hafter : ¬ Starts nonblank after) :
    Whole (followWays g parts ways { before, after, captures }) result ↔
      ∃ head tail b, after = head ++ tail ∧ EndsTight head ∧ ¬ Starts nonblank tail ∧
        Aligned parts (words head) b ∧
        Whole (ways { before := head.reverse ++ before, after := tail,
                      captures := recorded g b captures }) result := by
  induction parts generalizing g before after captures with
  | nil =>
      have hways : ∀ st, followWays g [] ways st = ways st := by
        intro st
        simp [followWays, partsPieces, waysAll]
      rw [hways]
      constructor
      · intro h
        exact ⟨[], after, [], rfl, endsTight_nil, hafter, .nil, h⟩
      · rintro ⟨head, tail, b, rfl, hend, -, haligned, h⟩
        generalize hwords : words head = ws at haligned
        cases haligned
        obtain rfl := eq_nil_of_words_eq_nil hwords hend
        exact h
  | cons part parts ih =>
      have hpart := hparts part List.mem_cons_self
      have htail : ∀ p ∈ parts, p.Mandatory := fun p hp => hparts p (List.mem_cons_of_mem part hp)
      have hnostart := stops_followWays hstops (g + part.groups) htail
      rw [followWays_cons hpart]
      constructor
      · intro h
        have hne : (takeWays g part { before, after, captures }).flatMap
            (followWays (g + part.groups) parts ways) ≠ [] := by
          intro hnil
          exact not_whole_nil result (hnil ▸ h)
        obtain ⟨gap, w, rest, b, hnext, htakes⟩ :=
          exists_takes_of_takeWays_ne_nil hpart.plain hnostart hafter hne
        rw [takeWays_of_takes hpart.plain g before captures hnostart hnext htakes,
          ih htail hnext.not_starts] at h
        obtain ⟨head, tail, bs, rfl, hend, hstart, haligned, hways⟩ := h
        have hhead : NextWord (gap ++ (w ++ head)) gap w head :=
          ⟨rfl, hnext.gap_ne_nil, hnext.gap_blank, hnext.isWord, not_starts_left hnext.not_starts⟩
        refine ⟨gap ++ (w ++ head), tail, b ++ bs, by simp [hnext.eq_append],
          hhead.endsTight_iff.mpr hend, hstart, ?_, ?_⟩
        · rw [hhead.words_eq]
          exact .takes htakes haligned
        · simpa [recorded_append, htakes.length_eq] using hways
      · rintro ⟨head, tail, b, rfl, hend, hstart, haligned, hways⟩
        generalize hwords : words head = ws at haligned
        cases haligned with
        | skips => cases hpart.not_optional
        | @takes _ _ w ws b bs htakes hrest =>
            obtain ⟨gap, rest, hhead, rfl⟩ := exists_nextWord_of_words_eq (not_starts_left hafter) hwords
            have hnext : NextWord (head ++ tail) gap w (rest ++ tail) :=
              ⟨by rw [hhead.eq_append]; simp, hhead.gap_ne_nil, hhead.gap_blank, hhead.isWord,
                not_starts_append hhead.not_starts hstart⟩
            rw [takeWays_of_takes hpart.plain g before captures hnostart hnext htakes,
              ih htail hnext.not_starts]
            refine ⟨rest, tail, bs, rfl, hhead.endsTight_iff.mp hend, hstart, hrest, ?_⟩
            rw [hhead.eq_append, recorded_append, htakes.length_eq] at hways
            simpa using hways

/-! ### The last parameter -/

/-- The rest of a line in a pattern, captured. -/
def lineGroup (g : Nat) : Expr := .group (g + 1) (.rep (.set .notLineFeed) 0 none false)

/-- The ways through the rest of a line to its end. -/
def lineWays (g : Nat) : State → List State := waysAll [lineGroup g, .anchor .lineEnd]

/-- The ways through a last parameter that takes the rest of a line. -/
def restWays (g : Nat) (optional : Bool) (st : State) : List State :=
  (blankRun.ways st).flatMap (lineWays g) ++
    if optional then (Expr.anchor .lineEnd).ways st else []

/-- They are the ways through its pieces. -/
theorem restWays_eq (g : Nat) (name : String) (optional : Bool) (st : State) :
    waysAll (((Part.parameter name .line optional []).pieces true g).map (·.expr) ++
      [.anchor .lineEnd]) st = restWays g optional st := by
  have hgroup : (Part.groupPieces true .line g).map (·.expr) = [blankRun, lineGroup g] := rfl
  have hline : ∀ st, waysAll [blankRun, lineGroup g, .anchor .lineEnd] st =
      (blankRun.ways st).flatMap (lineWays g) := fun _ => rfl
  cases optional with
  | false =>
      have hpieces : ((Part.parameter name .line false []).pieces true g).map (·.expr) =
          [blankRun, lineGroup g] := by
        rw [← hgroup]
        simp [Part.pieces, literalPieces]
      rw [hpieces, restWays, if_neg (by simp), List.append_nil, ← hline]
      rfl
  | true =>
      have hpieces : ((Part.parameter name .line true []).pieces true g).map (·.expr) =
          [.rep (.seqAll [blankRun, lineGroup g]) 0 (some 1) false] := by
        rw [← hgroup]
        rfl
      rw [hpieces, waysAll_append, waysAll_singleton, Expr.ways_optional, Expr.ways_seqAll,
        List.flatMap_append, ← waysAll_append, List.flatMap_singleton, waysAll_singleton, restWays,
        if_pos rfl, ← hline]
      rfl

theorem contains_notLineFeed (c : Char) : CharSet.notLineFeed.contains c = (c != '\n') := by
  have honly : CharSet.notLineFeed.contains c = !(CharSet.only '\n').contains c := by
    simp [CharSet.notLineFeed, CharSet.only, CharSet.contains]
  rw [honly, CharSet.contains_only]
  rfl

/-- No way goes on inside a word: there would have to be blanks, or the end of a line. -/
theorem stops_restWays (g : Nat) (optional : Bool) : Stops nonblank (restWays g optional) := by
  intro st c rest hafter hc
  have hblank : ¬ Starts blankSet.contains st.after := by
    rw [contains_blankSet, hafter, starts_cons]
    simpa [nonblank] using hc
  have hline : Anchor.lineEnd.holds st = false := by
    have hne : c ≠ '\n' := by
      rintro rfl
      exact absurd hc (by decide)
    simp [Anchor.holds, hafter, hne]
  rw [restWays, blankRun, Expr.ways_plus_of_not_starts hblank, Expr.ways, hline]
  cases optional <;> rfl

/-- The first way takes all of the line. -/
theorem exists_lineWays {line rest : List Char} (hline : '\n' ∉ line)
    (hrest : rest = [] ∨ ∃ more, rest = '\n' :: more) (g : Nat) (before : List Char)
    (captures : List (Nat × List Char)) :
    ∃ later, lineWays g { before, after := line ++ rest, captures } =
      { before := line.reverse ++ before, after := rest,
        captures := (g + 1, line) :: captures } :: later := by
  have hrun : ∀ c ∈ line, CharSet.notLineFeed.contains c = true := by
    intro c hc
    rw [contains_notLineFeed, bne_iff_ne]
    rintro rfl
    exact hline hc
  have hstop : ¬ Starts CharSet.notLineFeed.contains rest := by
    rcases hrest with rfl | ⟨more, rfl⟩
    · exact not_starts_nil _
    · rw [starts_cons, contains_notLineFeed]
      decide
  have hends : ∀ before captures, Anchor.lineEnd.holds { before, after := rest, captures } = true := by
    intro before captures
    rcases hrest with rfl | ⟨more, rfl⟩ <;> simp [Anchor.holds]
  obtain ⟨later, hways⟩ := exists_ways_star hrun hstop before captures
  have hcapture : (line ++ rest).take ((line ++ rest).length - rest.length) = line := by simp
  rw [lineWays, waysAll, lineGroup, Expr.ways, hways, List.map_cons, List.flatMap_cons,
    waysAll_singleton, State.capture, hcapture, Expr.ways, if_pos (hends _ _)]
  exact ⟨_, rfl⟩

/-- What the last parameter takes of a text behind a word: the rest of the line behind blanks, when no
other line follows, and nothing of nothing, when it may be left out. -/
inductive RestTakes (optional : Bool) : List Char → Option (List Char) → Prop where
  | line {gap rest : List Char} (hgap : gap ≠ []) (hblank : ∀ c ∈ gap, isBlank c = true)
      (hstart : ¬ Starts isBlank rest) (hline : '\n' ∉ rest) :
      RestTakes optional (gap ++ rest) (some rest)
  | nothing (hoptional : optional = true) : RestTakes optional [] none

/-- **The last parameter**: the first way reaches the end of the message exactly when the parameter
can take what is left, and this is what it captures. -/
theorem whole_restWays_iff {g : Nat} {optional : Bool} {before after : List Char}
    {captures result : List (Nat × List Char)} (name : String) (hafter : ¬ Starts nonblank after) :
    Whole (restWays g optional { before, after, captures }) result ↔
      ∃ taken, RestTakes optional after taken ∧ result = recorded g [(name, taken)] captures := by
  rcases exists_gap_append hafter with rfl | ⟨gap, text, rfl, hgap, hblank, htext⟩
  · have hnone : blankRun.ways { before, after := [], captures } = [] :=
      Expr.ways_plus_of_not_starts (not_starts_nil _)
    rw [restWays, hnone, List.flatMap_nil, List.nil_append]
    constructor
    · intro h
      cases optional with
      | false => exact absurd h (not_whole_nil result)
      | true =>
          obtain ⟨st, hst, -, rfl⟩ := h
          obtain rfl := Option.some.inj hst
          exact ⟨none, .nothing rfl, rfl⟩
    · rintro ⟨taken, htakes, rfl⟩
      generalize heq : ([] : List Char) = after at htakes
      cases htakes with
      | line hne => exact absurd (List.append_eq_nil_iff.mp heq.symm).1 hne
      | nothing hoptional =>
          rw [hoptional]
          exact ⟨_, rfl, rfl, rfl⟩
  · -- all blanks are passed first, and then all of the line
    obtain ⟨line, rest, rfl, hline, hrest⟩ := exists_line_append text
    rw [← contains_blankSet] at hblank htext
    obtain ⟨later, hblanks⟩ := exists_ways_plus hgap hblank htext before captures
    obtain ⟨others, hways⟩ := exists_lineWays hline hrest g (gap.reverse ++ before) captures
    have hne : lineWays g { before := gap.reverse ++ before, after := line ++ rest, captures } ≠ [] := by
      simp [hways]
    rw [contains_blankSet] at hblank htext
    rw [restWays, blankRun, hblanks, whole_append_iff, whole_flatMap_cons_iff hne, hways]
    have hnotnil : ((⟨gap.reverse ++ before, line ++ rest, captures⟩ : State) :: later).flatMap
        (lineWays g) ≠ [] := by simp [hways]
    rw [or_iff_left fun h => hnotnil h.1]
    constructor
    · rintro ⟨st, hst, hend, rfl⟩
      obtain rfl := Option.some.inj hst
      obtain rfl : rest = [] := hend
      rw [List.append_nil] at htext ⊢
      exact ⟨some line, .line hgap hblank htext hline, rfl⟩
    · rintro ⟨taken, htakes, rfl⟩
      generalize heq : gap ++ (line ++ rest) = after at htakes
      cases htakes with
      | nothing => exact absurd (List.append_eq_nil_iff.mp heq).1 hgap
      | @line gap' rest' hgap' hblank' hstart' hline' =>
          have hsplit : gap = gap' := by
            rw [← @takeWhile_append_of_not_starts isBlank gap _ hblank htext, heq,
              takeWhile_append_of_not_starts hblank' hstart']
          subst hsplit
          obtain rfl := List.append_cancel_left heq
          rcases hrest with rfl | ⟨more, rfl⟩
          · exact ⟨_, rfl, rfl, by simp [recorded]⟩
          · exact absurd (List.mem_append_right line List.mem_cons_self) hline'

/-- What the last parameter takes starts with no word. -/
theorem RestTakes.not_starts {optional : Bool} {tail : List Char} {taken : Option (List Char)}
    (h : RestTakes optional tail taken) : ¬ Starts nonblank tail := by
  cases h with
  | nothing => exact not_starts_nil _
  | @line gap rest hgap hblank =>
      obtain ⟨c, gap, rfl⟩ := List.exists_cons_of_ne_nil hgap
      simp [nonblank, hblank c List.mem_cons_self]

/-! ### From the start of the message -/

theorem partsPieces_append (g : Nat) (parts more : List Part) :
    partsPieces true g (parts ++ more) =
      partsPieces true g parts ++ partsPieces true (g + partsGroups parts) more := by
  induction parts generalizing g with
  | nil => rfl
  | cons part parts ih =>
      rw [List.cons_append, partsPieces, partsPieces, ih, List.append_assoc, partsGroups,
        Nat.add_assoc]

/-- The ways through parts and a last parameter to the end of a line. -/
theorem tailWays_append_rest (parts : List Part) (name : String) (optional : Bool) :
    tailWays 0 (parts ++ [.parameter name .line optional []]) =
      followWays 0 parts (restWays (partsGroups parts) optional) := by
  funext st
  rw [tailWays, partsPieces_append, Nat.zero_add, List.map_append, List.append_assoc,
    waysAll_append, followWays]
  congr 1
  funext st'
  rw [← restWays_eq _ name optional, partsPieces, partsPieces, List.append_nil]

/-- A literal takes its own text. -/
theorem takes_literal_iff {text w : List Char} {b : Takings} :
    (Part.literal text).Takes w b ↔ text = w ∧ b = [] := by
  constructor
  · intro h
    cases h
    exact ⟨rfl, rfl⟩
  · rintro ⟨rfl, rfl⟩
    exact .literal text

/-- A word in front of what the parts take. -/
theorem aligned_literal_iff {first : List Char} {parts : List Part} {ws : List (List Char)}
    {b : Takings} :
    Aligned (.literal first :: parts) ws b ↔ ∃ rest, ws = first :: rest ∧ Aligned parts rest b := by
  constructor
  · intro h
    cases h with
    | takes hpart hparts =>
        obtain ⟨rfl, rfl⟩ := takes_literal_iff.mp hpart
        exact ⟨_, rfl, hparts⟩
  · rintro ⟨rest, rfl, hparts⟩
    exact .takes (.literal first) hparts

/-- **The first way through a whole pattern** takes a word for each part, and then what the last
parameter takes. -/
theorem whole_patternExprs_rest_iff {first : List Char} (hfirst : IsWord first) {parts : List Part}
    (hparts : ∀ part ∈ parts, part.Mandatory) {name : String} {optional : Bool} {message : List Char}
    {result : List (Nat × List Char)} :
    Whole (waysAll (patternExprs (.literal first :: (parts ++ [.parameter name .line optional []])))
        (.start message)) result ↔
      ¬ Starts isBlank message ∧ ∃ head tail b taken, message = head ++ tail ∧ EndsTight head ∧
        Aligned (.literal first :: parts) (words head) b ∧ RestTakes optional tail taken ∧
        result = recorded 0 (b ++ [(name, taken)]) [] := by
  have hstops := stops_restWays (partsGroups parts) optional
  have hfollow := stops_followWays hstops 0 hparts
  have hplain : (Part.literal first).Plain := hfirst
  rw [waysAll_patternExprs, tailWays_append_rest]
  constructor
  · intro h
    by_cases hstart : Starts nonblank message
    · obtain ⟨w, rest, rfl, hw, hrest⟩ := exists_word_append hstart
      by_cases htakes : ∃ b, (Part.literal first).Takes w b
      · obtain ⟨b, hb⟩ := htakes
        obtain ⟨rfl, rfl⟩ := takes_literal_iff.mp hb
        rw [State.start, bodyWays_of_takes hfollow hw hrest (.literal first),
          whole_followWays_iff hparts hstops hrest] at h
        obtain ⟨head, tail, b, rfl, hend, htail, haligned, h⟩ := h
        obtain ⟨taken, htaken, rfl⟩ := (whole_restWays_iff name htail).mp h
        refine ⟨hw.not_starts_blank _, first ++ head, tail, b, taken, (List.append_assoc _ _ _).symm,
          (endsTight_word_append hw head).mpr hend, ?_, htaken, ?_⟩
        · rw [words_word_append hw (not_starts_left hrest)]
          exact .takes (.literal first) haligned
        · rw [recorded_append, haligned.length_eq, Nat.zero_add]
          rfl
      · rw [State.start, bodyWays_of_not_takes hfollow hw hrest hplain htakes] at h
        exact absurd h (not_whole_nil result)
    · rw [bodyWays_of_not_starts hplain 0 hstart, List.flatMap_nil] at h
      exact absurd h (not_whole_nil result)
  · rintro ⟨hblank, head, tail, b, taken, rfl, hend, haligned, htaken, rfl⟩
    obtain ⟨ws, hwords, haligned⟩ := aligned_literal_iff.mp haligned
    have hstart : Starts nonblank head := by
      cases head with
      | nil => cases hwords
      | cons c head => exact starts_cons.mpr (by simpa [nonblank] using hblank)
    obtain ⟨w, rest, rfl, hw, hrest⟩ := exists_word_append hstart
    rw [words_word_append hw hrest] at hwords
    obtain ⟨rfl, rfl⟩ := List.cons.inj hwords
    have hleft := not_starts_append hrest htaken.not_starts
    rw [List.append_assoc, State.start, bodyWays_of_takes hfollow hw hleft (.literal w),
      whole_followWays_iff hparts hstops hleft]
    refine ⟨rest, tail, b, rfl, (endsTight_word_append hw rest).mp hend, htaken.not_starts, haligned,
      (whole_restWays_iff name htaken.not_starts).mpr ⟨taken, htaken, ?_⟩⟩
    rw [recorded_append, haligned.length_eq, Nat.zero_add]
    rfl

/-! ### Binding -/

theorem partsGroups_append (parts more : List Part) :
    partsGroups (parts ++ more) = partsGroups parts + partsGroups more := by
  induction parts with
  | nil => exact (Nat.zero_add _).symm
  | cons part parts ih => rw [List.cons_append, partsGroups, ih, partsGroups, Nat.add_assoc]

/-- The parameters of parts are as many as their groups. -/
theorem length_filterMap_parameter? (defaults : Bindings) (parts : List Part) :
    (parts.filterMap (Part.parameter? defaults)).length = partsGroups parts := by
  induction parts with
  | nil => rfl
  | cons part parts ih =>
      cases part with
      | literal text => rw [List.filterMap_cons, partsGroups, ← ih, Part.groups, Nat.zero_add]; rfl
      | parameter name extent optional suffix =>
          rw [List.filterMap_cons, partsGroups, ← ih, Part.groups, Nat.add_comm]
          rfl

/-- The arguments of parameters are those of the first ones and those of the others. -/
theorem outcome_bindAll_append {t : Template} {ps qs : List Parameter} {texts more : List (Option String)}
    {first rest : Arguments} (hlength : texts.length = ps.length)
    (hfirst : (t.bindAll ps texts).outcome = .ok first)
    (hrest : (t.bindAll qs more).outcome = .ok rest) :
    (t.bindAll (ps ++ qs) (texts ++ more)).outcome = .ok (first ++ rest) := by
  induction ps generalizing texts first with
  | nil =>
      obtain rfl := List.eq_nil_of_length_eq_zero hlength
      obtain rfl := Except.ok.inj hfirst
      exact hrest
  | cons p ps ih =>
      cases texts with
      | nil => cases hlength
      | cons matched texts =>
          simp only [Template.bindAll, Attempt.outcome_bind] at hfirst
          obtain ⟨argument, hargument, hfirst⟩ := Except.bind_eq_ok_iff.mp hfirst
          obtain ⟨others, hothers, hfirst⟩ := Except.bind_eq_ok_iff.mp hfirst
          obtain rfl := Except.ok.inj hfirst
          rw [List.append_assoc]
          exact outcome_bindAll_cons hargument (ih (Nat.succ.inj hlength) hothers)

/-- What `*name` is bound to, by what is left of the message behind the word in front of it: the rest
of the line behind blanks, or its default, if there is one and nothing is left. -/
inductive Remainder (defaults : Bindings) (name : String) : List Char → MultiWord → Prop where
  | line {gap rest : List Char} (hgap : gap ≠ []) (hblank : ∀ c ∈ gap, isBlank c = true)
      (hstart : ¬ Starts isBlank rest) (hline : '\n' ∉ rest) :
      Remainder defaults name (gap ++ rest) (.ofText (String.ofList rest))
  | nothing (hdefault : defaults.has name = true) :
      Remainder defaults name [] (MultiWord.ofDefault (defaults.getD name) name).value

/-- The words of a last parameter, by what it has taken. -/
def restWords (defaults : Bindings) (name : String) : Option (List Char) → MultiWord
  | some rest => .ofText (String.ofList rest)
  | none => (MultiWord.ofDefault (defaults.getD name) name).value

theorem remainder_iff {defaults : Bindings} {name : String} {tail : List Char} {rest : MultiWord} :
    Remainder defaults name tail rest ↔
      ∃ taken, RestTakes (defaults.has name) tail taken ∧ rest = restWords defaults name taken := by
  constructor
  · intro h
    cases h with
    | line hgap hblank hstart hline => exact ⟨_, .line hgap hblank hstart hline, rfl⟩
    | nothing hdefault => exact ⟨_, .nothing hdefault, rfl⟩
  · rintro ⟨taken, h, rfl⟩
    cases h with
    | line hgap hblank hstart hline => exact .line hgap hblank hstart hline
    | nothing hdefault => exact .nothing hdefault

/-- The argument of a parameter that takes the rest of a line. -/
theorem outcome_bind_rest (t : Template) {p : Parameter} (hmulti : p.multi = true)
    (hdefault : p.default = t.defaults.getD p.name) (taken : Option (List Char)) :
    (t.bind p (taken.map String.ofList)).outcome =
      .ok (some (.words (restWords t.defaults p.name taken))) := by
  obtain ⟨name, multi, optional, default, collector⟩ := p
  obtain rfl : multi = true := hmulti
  obtain rfl : default = t.defaults.getD name := hdefault
  cases taken <;> rfl

/-! ### Recognizing -/

/-- A template without brackets that ends in `*name`. In front of it stand literals, and parameters
`:name` that have no default. No parameter has a suffix or a requirement. -/
structure RestTemplate (options : TemplateOptions) (text : String) (front : List (List Char))
    (name : List Char) : Prop where
  bracketFree : BracketFree text.toList
  words_eq : words text.toList = front ++ ['*' :: name]
  name_ne_nil : name ≠ []
  name_word : ∀ c ∈ name, isWordChar c = true
  free : options.requirements.getD (String.ofList name) = .null
  slots : ∀ w ∈ front, ∀ slot, Slot.ofWord? w = some slot →
    slot.multi = false ∧ slot.suffix = [] ∧
      options.requirements.getD (String.ofList slot.name) = .null ∧
      options.defaults.has (String.ofList slot.name) = false

namespace RestTemplate

variable {options : TemplateOptions} {text : String} {front : List (List Char)} {name : List Char}

theorem ofWord?_eq (h : RestTemplate options text front name) :
    Slot.ofWord? ('*' :: name) = some { multi := true, name, suffix := [] } := by
  have hword := Slot.ofWord?_sigil true h.name_ne_nil h.name_word (not_starts_nil isWordChar)
  rw [List.append_nil] at hword
  exact hword

/-- The parts of such a template. -/
theorem partsOf_eq (h : RestTemplate options text front name) :
    partsOf options text = front.map (.ofWord options.defaults options.requirements) ++
      [.parameter (String.ofList name) .line (options.defaults.has (String.ofList name)) []] := by
  rw [partsOf, h.words_eq, List.map_append, List.map_singleton]
  congr 2
  rw [Part.ofWord, h.ofWord?_eq]
  simp only [h.free]
  rfl

theorem wordwise (h : RestTemplate options text front name) : Wordwise options text where
  bracketFree := h.bracketFree
  textual := by
    intro w hw slot hslot
    rw [h.words_eq] at hw
    rcases List.mem_append.mp hw with hfront | hlast
    · exact .inl (h.slots w hfront slot hslot).2.2.1
    · obtain rfl := List.mem_singleton.mp hlast
      obtain rfl := Option.some.inj (h.ofWord?_eq.symm.trans hslot)
      exact .inl h.free

/-- Each word in front takes one word of a message. -/
theorem required (h : RestTemplate options text front name) :
    ∀ part ∈ front.map (Part.ofWord options.defaults options.requirements), part.Mandatory := by
  intro part hpart
  obtain ⟨w, hw, rfl⟩ := List.mem_map.mp hpart
  have hword : IsWord w := isWord_of_mem_words (h.words_eq ▸ List.mem_append_left _ hw)
  rw [Part.ofWord]
  cases hslot : Slot.ofWord? w with
  | none => exact ⟨hword, rfl⟩
  | some slot =>
      obtain ⟨hmulti, hsuffix, hnull, hdefault⟩ := h.slots w hw slot hslot
      refine ⟨⟨?_, fun _ => hsuffix, by simp [hsuffix]⟩, hdefault⟩
      rw [hmulti, hnull]
      rfl

end RestTemplate

namespace MadeOfParts

variable {t : Template} {options : TemplateOptions} {parts : List Part} {name : String}

/-- The first word is a literal, and so it is not the last parameter. -/
theorem exists_literal_front {optional : Bool}
    (h : MadeOfParts t options (parts ++ [.parameter name .line optional []])) :
    ∃ first rest, IsWord first ∧ parts = .literal first :: rest := by
  obtain ⟨first, others, hfirst, hparts⟩ := h.starts
  cases parts with
  | nil => cases hparts
  | cons part parts => exact ⟨first, parts, hfirst, by rw [(List.cons.inj hparts).1]⟩

/-- What is bound depends on the captures alone. -/
theorem bindAll_rest (h : MadeOfParts t options
      (parts ++ [.parameter name .line (options.defaults.has name) []]))
    {found : Match} {ws : List (List Char)} {b : Takings} {taken : Option (List Char)}
    (hb : Aligned parts ws b) (hcaptures : found.captures = recorded 0 (b ++ [(name, taken)]) []) :
    (t.bindAll t.parameters (t.matchedTexts found)).outcome =
      .ok (argumentsOf options.defaults b ++ [(name, .words (restWords options.defaults name taken))]) := by
  have hlength : t.pattern.groups = (b ++ [(name, taken)]).length := by
    rw [h.groups_eq, List.length_append, hb.length_eq, partsGroups_append]
    rfl
  rw [matchedTexts_of_recorded hcaptures hlength, h.parameters_eq, List.filterMap_append,
    List.map_append, ← h.defaults_eq]
  refine outcome_bindAll_append ?_ (bindAll_of_aligned hb) ?_
  · rw [List.length_map, hb.length_eq, length_filterMap_parameter?]
  · exact outcome_bindAll_cons (outcome_bind_rest t rfl rfl taken) rfl

end MadeOfParts

namespace Template

/-- **The rest of a line.** Take a template that ends in `*name`, and a message of a sort that it is not
kept from. The message is recognized exactly when it does not start with a blank, its first words are
taken by what stands in front of `*name`, one by one, and `*name` can be bound to what is left behind
them: blanks and then a text without line feeds, or nothing, if there is a default. -/
theorem recognize_iff_remainder {identity separator text : String} {options : TemplateOptions}
    {channel : Channel} {t : Template} {front : List (List Char)} {name : List Char}
    (hcompile : (compile identity (.text text) options separator channel).outcome = .ok t)
    (hrest : RestTemplate options text front name) {message : Message}
    (hrefusal : t.refusal? message.isPrivate = none) (arguments : Arguments) :
    (t.recognize message).outcome = .ok (.recognized arguments) ↔
      ¬ Starts isBlank message.text.toList ∧ ∃ head tail b rest,
        message.text.toList = head ++ tail ∧ EndsTight head ∧
        Aligned (front.map (.ofWord options.defaults options.requirements)) (words head) b ∧
        Remainder options.defaults (String.ofList name) tail rest ∧
        arguments = argumentsOf options.defaults b ++ [(String.ofList name, .words rest)] := by
  have hmade := madeOfParts_of_compile hrest.wordwise hcompile
  rw [hrest.partsOf_eq] at hmade
  obtain ⟨first, parts, hfirst, hfront⟩ := hmade.exists_literal_front
  have hrequired := hrest.required
  rw [hfront] at hmade hrequired ⊢
  have hways : t.pattern.expr.ways (.start message.text.toList) = waysAll (patternExprs
      (.literal first :: (parts ++ [.parameter (String.ofList name) .line
        (options.defaults.has (String.ofList name)) []]))) (.start message.text.toList) := by
    rw [hmade.expr_eq, Expr.ways_seqAll]
    rfl
  have hparts : ∀ part ∈ parts, part.Mandatory :=
    fun part hpart => hrequired part (List.mem_cons_of_mem _ hpart)
  rw [recognize_eq_recognized_iff, and_iff_right hrefusal]
  constructor
  · rintro ⟨found, hfound, harguments⟩
    obtain ⟨hstart, head, tail, b, taken, htext, hend, hb, htaken, hcaptures⟩ :=
      (whole_patternExprs_rest_iff hfirst hparts).mp
        (hways ▸ exists_search_iff_whole.mp ⟨found, hfound, rfl⟩)
    rw [hmade.bindAll_rest hb hcaptures] at harguments
    exact ⟨hstart, head, tail, b, _, htext, hend, hb, remainder_iff.mpr ⟨taken, htaken, rfl⟩,
      (Except.ok.inj harguments).symm⟩
  · rintro ⟨hstart, head, tail, b, rest, htext, hend, hb, hremainder, rfl⟩
    obtain ⟨taken, htaken, rfl⟩ := remainder_iff.mp hremainder
    obtain ⟨found, hfound, hcaptures⟩ := exists_search_iff_whole.mpr
      (hways ▸ (whole_patternExprs_rest_iff hfirst hparts).mpr
        ⟨hstart, head, tail, b, taken, htext, hend, hb, htaken, rfl⟩)
    exact ⟨found, hfound, hmade.bindAll_rest hb hcaptures⟩

/-- A template with a word, a parameter for one word, and a parameter for the rest. -/
def tellText : String := "tell :who *what"

/-- Its options: there is something to tell when nothing is said. -/
def tellOptions : TemplateOptions := { defaults := [("what", .list [.text "good", .text "day"])] }

theorem restTemplate_tell :
    RestTemplate tellOptions tellText ["tell".toList, ":who".toList] "what".toList := by
  have hname : ∀ c ∈ "what".toList, isWordChar c = true := List.all_eq_true.mp (by decide +kernel)
  refine ⟨by decide, by decide +kernel, by decide, hname, rfl, fun w hw slot hslot => ?_⟩
  have htell : Slot.ofWord? "tell".toList = none := by decide
  have hwho : Slot.ofWord? ":who".toList = some ⟨false, "who".toList, []⟩ := by decide +kernel
  simp only [List.mem_cons, List.not_mem_nil, or_false] at hw
  rcases hw with rfl | rfl
  · cases htell.symm.trans hslot
  · obtain rfl := Option.some.inj (hwho.symm.trans hslot)
    exact ⟨rfl, rfl, rfl, rfl⟩

/-- The rest starts behind all blanks, a line feed among them, and keeps those at its end. When nothing
is left there is the default. -/
theorem recognize_iff_remainder_tell :
    ∃ t, (compile "hall" (.text tellText) tellOptions).outcome = .ok t ∧
      RestTemplate tellOptions tellText ["tell".toList, ":who".toList] "what".toList ∧
      t.refusal? false = none ∧
      (t.recognize { text := "tell bob \n hi  you " }).outcome = .ok (.recognized
        [("who", .value (.text "bob")),
          ("what", .words { words := ["hi", "you"], text := "hi  you " })]) ∧
      (t.recognize { text := "tell bob" }).outcome = .ok (.recognized
        [("who", .value (.text "bob")),
          ("what", .words { words := ["good", "day"], text := "good day" })]) := by
  have hcompiles : (compile "hall" (.text tellText) tellOptions).outcome.toOption.isSome = true := by
    decide
  cases hcompile : (compile "hall" (.text tellText) tellOptions).outcome with
  | error e =>
      rw [hcompile] at hcompiles
      cases hcompiles
  | ok t =>
      have hrefusal : t.refusal? false = none := by
        have hmade := madeOfParts_of_compile restTemplate_tell.wordwise hcompile
        simp [refusal?, hmade.inPublic_eq, hmade.inPrivate_eq, tellOptions]
      have haligned : Aligned (["tell".toList, ":who".toList].map
          (.ofWord tellOptions.defaults tellOptions.requirements)) (words "tell bob".toList)
            [("who", some "bob".toList)] := by
        have hparts : ["tell".toList, ":who".toList].map
            (Part.ofWord tellOptions.defaults tellOptions.requirements) =
              [.literal "tell".toList, .parameter "who" .word false []] := by decide +kernel
        have hwords : words "tell bob".toList = ["tell".toList, "bob".toList ++ []] := by decide
        rw [hparts, hwords]
        exact .takes (.literal _) (.takes (.word (by decide)) .nil)
      have hend : EndsTight "tell bob".toList := by
        rintro c hc
        obtain rfl : 'b' = c := Option.some.inj hc
        decide
      have hgap : ∀ c ∈ " \n ".toList, isBlank c = true := List.all_eq_true.mp (by decide)
      refine ⟨t, rfl, restTemplate_tell, hrefusal, ?_, ?_⟩
      · refine (recognize_iff_remainder hcompile restTemplate_tell hrefusal _).mpr
          ⟨by decide, "tell bob".toList, " \n hi  you ".toList, _, _, by decide, hend, haligned,
            @Remainder.line _ _ " \n ".toList "hi  you ".toList (by decide) hgap (by decide)
              (by decide), rfl⟩
      · exact (recognize_iff_remainder hcompile restTemplate_tell hrefusal _).mpr
          ⟨by decide, "tell bob".toList, [], _, _, by decide, hend, haligned, .nothing rfl, rfl⟩

end Template

end Switchboard
