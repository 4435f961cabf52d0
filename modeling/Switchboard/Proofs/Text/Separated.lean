import Mathlib.Data.List.Basic
import Switchboard.Text.Separated

/-!
# Splitting Joined Text

`splitOn` finds separators from left to right, so a text that was joined from parts is in general not
split into these parts again: where one part ends and the separator begins, another occurrence may
start earlier. `EndedBy` says of a part that this does not happen. Such a part is found again, whatever has
been joined to it, and splitting takes such parts off a text one after the other
(`splitFrom_cases`, `split_induction`).

What has been put behind a text and a separator does not matter to this. A separator `Bounds` a text when
it is found where it has been put behind the text. Then what follows is split by itself
(`Bounds.splitOn_append`), and only then is the text found among the beginnings of the whole
(`bounds_iff`).

## Main results

* `splitOn_joined`: the first part of a joined text, when it shares no character with the separator.
* `Bounds.splitOn_append`, `bounds_iff`: splitting a text with a separator and something behind it.
-/

namespace Switchboard

/-- Passing over characters is dropping them. -/
theorem splitFrom_skip (separator : List Char) (skip : Nat) (cs : List Char) :
    splitFrom separator skip cs = splitFrom separator 0 (cs.drop skip) := by
  induction skip generalizing cs with
  | zero => rfl
  | succ skip ih =>
      cases cs with
      | nil => rfl
      | cons c cs => exact ih cs

/-- The separator ends a part. -/
theorem splitFrom_separator {separator : List Char} (h : separator ≠ []) (rest : List Char) :
    splitFrom separator 0 (separator ++ rest) = [] :: splitFrom separator 0 rest := by
  cases separator with
  | nil => exact absurd rfl h
  | cons c separator =>
      have hprefix : (c :: separator).isPrefixOf (c :: (separator ++ rest)) = true :=
        List.isPrefixOf_iff_prefix.mpr ⟨rest, rfl⟩
      rw [List.cons_append, splitFrom, if_pos hprefix, splitFrom_skip]
      simp

/-! ### Parts that a separator ends -/

/-- A separator behind a part is the first one that is found: it occurs there at the end only. -/
def EndedBy (separator part : List Char) : Prop :=
  ∀ before after, part ++ separator = before ++ (separator ++ after) → after = []

theorem endedBy_nil (separator : List Char) : EndedBy separator [] := by
  intro before after h
  have hlength := congrArg List.length h
  simp only [List.nil_append, List.length_append] at hlength
  exact List.length_eq_zero_iff.mp (by omega)

/-- A separator cannot start with a part that it ends. -/
theorem EndedBy.not_isPrefixOf {separator : List Char} {c : Char} {part : List Char}
    (h : EndedBy separator (c :: part)) (rest : List Char) :
    ¬ separator.isPrefixOf (c :: (part ++ (separator ++ rest))) = true := by
  intro hprefix
  have hlong : separator <+: c :: part ++ separator := by
    refine List.prefix_of_prefix_length_le (List.isPrefixOf_iff_prefix.mp hprefix)
      ⟨rest, by simp⟩ ?_
    simp only [List.length_append]
    omega
  obtain ⟨after, hafter⟩ := hlong
  obtain rfl := h [] after hafter.symm
  have hlength := congrArg List.length hafter
  simp only [List.append_nil, List.length_append, List.length_cons] at hlength
  omega

theorem EndedBy.of_cons {separator : List Char} {c : Char} {part : List Char}
    (h : EndedBy separator (c :: part)) : EndedBy separator part := by
  intro before after heq
  exact h (c :: before) after (congrArg (c :: ·) heq)

/-- A part that a separator ends is cut off there. -/
theorem EndedBy.splitFrom_append {separator part : List Char} (h : EndedBy separator part)
    (hne : separator ≠ []) (rest : List Char) :
    splitFrom separator 0 (part ++ (separator ++ rest)) = part :: splitFrom separator 0 rest := by
  induction part with
  | nil => exact splitFrom_separator hne rest
  | cons c part ih =>
      rw [List.cons_append, splitFrom, if_neg (h.not_isPrefixOf rest), ih h.of_cons]
      rfl

/-- No separator is found in a part that one ends. -/
theorem EndedBy.splitFrom_self {separator part : List Char} (h : EndedBy separator part) :
    splitFrom separator 0 part = [part] := by
  induction part with
  | nil => rfl
  | cons c part ih =>
      have hprefix : ¬ separator.isPrefixOf (c :: part) = true := by
        intro hprefix
        obtain ⟨more, hmore⟩ := List.isPrefixOf_iff_prefix.mp hprefix
        refine h.not_isPrefixOf [] (List.isPrefixOf_iff_prefix.mpr ⟨more ++ separator, ?_⟩)
        rw [← List.append_assoc, hmore, List.append_nil, List.cons_append]
      rw [splitFrom, if_neg hprefix, ih h.of_cons]
      rfl

/-- **Splitting finds the first separator**: there is none and the text is one part, or the text is cut
behind a part that a separator ends. -/
theorem splitFrom_cases {separator : List Char} (hne : separator ≠ []) (text : List Char) :
    splitFrom separator 0 text = [text] ∨
      ∃ part rest, EndedBy separator part ∧ text = part ++ (separator ++ rest) ∧
        splitFrom separator 0 text = part :: splitFrom separator 0 rest := by
  induction text with
  | nil => exact .inl rfl
  | cons c cs ih =>
      by_cases hprefix : separator.isPrefixOf (c :: cs) = true
      · obtain ⟨rest, hrest⟩ := List.isPrefixOf_iff_prefix.mp hprefix
        refine .inr ⟨[], rest, endedBy_nil separator, hrest.symm, ?_⟩
        rw [← hrest, splitFrom_separator hne]
      · rw [splitFrom, if_neg hprefix]
        rcases ih with hone | ⟨part, rest, hended, rfl, hsplit⟩
        · exact .inl (by rw [hone]; rfl)
        · refine .inr ⟨c :: part, rest, ?_, rfl, by rw [hsplit]; rfl⟩
          rintro (- | ⟨d, before⟩) after heq
          · -- The separator would start with the first character, where it has not been found.
            have hfront := (List.prefix_append separator after).trans
              ⟨rest, by simpa using congrArg (· ++ rest) heq.symm⟩
            exact absurd (List.isPrefixOf_iff_prefix.mpr hfront) hprefix
          · exact hended before after (List.cons.inj heq).2

/-- The first part of a text is all of it, or a separator ends it and the others are those of the rest. -/
theorem splitFrom_eq_cons {separator : List Char} (hne : separator ≠ []) {text part : List Char}
    {parts : List (List Char)} (h : splitFrom separator 0 text = part :: parts) :
    text = part ∧ parts = [] ∨
      ∃ rest, EndedBy separator part ∧ text = part ++ (separator ++ rest) ∧
        splitFrom separator 0 rest = parts := by
  rcases splitFrom_cases hne text with hone | ⟨first, rest, hended, htext, hsplit⟩
  · rw [hone] at h
    obtain ⟨rfl, rfl⟩ := List.cons.inj h
    exact .inl ⟨rfl, rfl⟩
  · rw [hsplit] at h
    obtain ⟨rfl, rfl⟩ := List.cons.inj h
    exact .inr ⟨rest, hended, htext, rfl⟩

/-- **Cutting a text at its separators**, one after the other. -/
@[elab_as_elim]
theorem split_induction {separator : List Char} (hne : separator ≠ []) {motive : List Char → Prop}
    (whole : ∀ text, splitFrom separator 0 text = [text] → motive text)
    (cut : ∀ part rest, EndedBy separator part → motive rest → motive (part ++ (separator ++ rest)))
    (text : List Char) : motive text := by
  induction hlength : text.length using Nat.strongRecOn generalizing text with
  | ind n ih =>
      rcases splitFrom_cases hne text with hone | ⟨part, rest, hended, rfl, -⟩
      · exact whole text hone
      · have hpos : 0 < separator.length := List.length_pos_iff.mpr hne
        have hshorter : rest.length < n := by
          simp only [← hlength, List.length_append]
          omega
        exact cut part rest hended (ih rest.length hshorter rest rfl)

/-- A text has at least one part. -/
theorem splitFrom_ne_nil {separator : List Char} (hne : separator ≠ []) (text : List Char) :
    splitFrom separator 0 text ≠ [] := by
  rcases splitFrom_cases hne text with hone | ⟨part, rest, -, -, hsplit⟩
  · rw [hone]
    exact List.cons_ne_nil _ _
  · rw [hsplit]
    exact List.cons_ne_nil _ _

/-- Joining the parts of a text gives it back. -/
theorem intercalate_splitFrom {separator : List Char} (hne : separator ≠ []) (text : List Char) :
    separator.intercalate (splitFrom separator 0 text) = text := by
  induction text using split_induction hne with
  | whole text hone => rw [hone, List.intercalate_singleton]
  | cut part rest hended ih =>
      rw [hended.splitFrom_append hne, List.intercalate_cons_of_ne_nil (splitFrom_ne_nil hne rest), ih,
        List.append_assoc]

/-- A part that shares no character with the separator is ended by it. -/
theorem endedBy_of_disjoint {separator part : List Char} (hne : separator ≠ [])
    (h : part.Disjoint separator) : EndedBy separator part := by
  intro before after heq
  rcases List.append_eq_append_iff.mp heq with ⟨more, -, hmore⟩ | ⟨more, rfl, hmore⟩
  · have hlength := congrArg List.length hmore
    simp only [List.length_append] at hlength
    exact List.length_eq_zero_iff.mp (by omega)
  · cases more with
    | nil => simpa using hmore
    | cons c more =>
        -- The separator would start with a character of the part.
        cases separator with
        | nil => exact absurd rfl hne
        | cons d separator =>
            obtain ⟨rfl, -⟩ := List.cons.inj hmore
            exact absurd List.mem_cons_self (h (by simp))

/-- **The first part of a joined text** is found again when it shares no character with the
separator. -/
theorem splitOn_joined {separator first : String} (h : separator ≠ "")
    (hfirst : first.toList.Disjoint separator.toList) (more : List String) :
    ∃ parts, splitOn separator (String.intercalate separator (first :: more)) = first :: parts := by
  have hne : separator.toList ≠ [] := fun hnil => h (String.toList_eq_nil_iff.mp hnil)
  have hended : EndedBy separator.toList first.toList := endedBy_of_disjoint hne hfirst
  rw [splitOn]
  cases more with
  | nil =>
      refine ⟨[], ?_⟩
      rw [String.intercalate_singleton, hended.splitFrom_self, List.map_singleton,
        String.ofList_toList]
  | cons second more =>
      have htext : (String.intercalate separator (first :: second :: more)).toList =
          first.toList ++
            (separator.toList ++ (String.intercalate separator (second :: more)).toList) := by
        simp
      rw [htext, hended.splitFrom_append hne, List.map_cons, String.ofList_toList]
      exact ⟨_, rfl⟩

/-! ### Texts that a separator bounds -/

/-- Where a separator behind a text is found, what follows it is split by itself. -/
theorem splitFrom_append_separator {separator text : List Char} (hne : separator ≠ [])
    (h : splitFrom separator 0 (text ++ separator) = splitFrom separator 0 text ++ [[]])
    (rest : List Char) :
    splitFrom separator 0 (text ++ (separator ++ rest)) =
      splitFrom separator 0 text ++ splitFrom separator 0 rest := by
  induction text using split_induction hne with
  | whole text hone =>
      have hended : EndedBy separator text := by
        rw [hone, List.singleton_append] at h
        rcases splitFrom_eq_cons hne h with ⟨-, hnil⟩ | ⟨more, hended, -⟩
        · cases hnil
        · exact hended
      rw [hone, hended.splitFrom_append hne, List.singleton_append]
  | cut part more hended ih =>
      rw [List.append_assoc, List.append_assoc, hended.splitFrom_append hne,
        hended.splitFrom_append hne] at h
      rw [List.append_assoc, List.append_assoc, hended.splitFrom_append hne,
        hended.splitFrom_append hne, ih (List.cons.inj h).2, List.cons_append]

/-- Where the first parts of a text make up what stands in front of a separator, it has been found
there. -/
theorem splitFrom_intercalate {separator : List Char} (hne : separator ≠ [])
    {parts more : List (List Char)} (hparts : parts ≠ []) {rest : List Char}
    (h : splitFrom separator 0 (separator.intercalate parts ++ (separator ++ rest)) = parts ++ more) :
    splitFrom separator 0 (separator.intercalate parts) = parts ∧
      splitFrom separator 0 (separator.intercalate parts ++ separator) = parts ++ [[]] := by
  induction parts with
  | nil => exact absurd rfl hparts
  | cons part parts ih =>
      cases parts with
      | nil =>
          rw [List.intercalate_singleton] at h ⊢
          have hended : EndedBy separator part := by
            rcases splitFrom_eq_cons hne h with ⟨hwhole, -⟩ | ⟨left, hended, -⟩
            · -- The part would be all of the text, the separator included.
              have hlength := congrArg List.length hwhole
              have hpos : 0 < separator.length := List.length_pos_iff.mpr hne
              simp only [List.length_append] at hlength
              omega
            · exact hended
          have hcut := hended.splitFrom_append hne []
          rw [List.append_nil] at hcut
          exact ⟨hended.splitFrom_self, hcut⟩
      | cons second parts =>
          have htext : ∀ tail, separator.intercalate (part :: second :: parts) ++ tail =
              part ++ (separator ++ (separator.intercalate (second :: parts) ++ tail)) := by
            intro tail
            rw [List.intercalate_cons_of_ne_nil (List.cons_ne_nil _ _), List.append_assoc,
              List.append_assoc]
          rw [htext] at h
          rcases splitFrom_eq_cons hne h with ⟨-, hnil⟩ | ⟨left, hended, heq, hleft⟩
          · cases hnil
          · obtain rfl := List.append_cancel_left (List.append_cancel_left heq)
            obtain ⟨hself, hbounded⟩ := ih (List.cons_ne_nil _ _) hleft
            have hrow := htext []
            rw [List.append_nil, List.append_nil] at hrow
            rw [htext, hrow, hended.splitFrom_append hne, hended.splitFrom_append hne, hself, hbounded]
            exact ⟨rfl, rfl⟩

/-- A separator bounds a text when it is found where it has been put behind the text. -/
def Bounds (separator text : String) : Prop :=
  splitOn separator (text ++ separator) = splitOn separator text ++ [""]

instance (separator text : String) : Decidable (Bounds separator text) :=
  inferInstanceAs (Decidable (_ = _))

/-- The parts of a text, as characters. -/
theorem map_toList_splitOn (separator text : String) :
    (splitOn separator text).map String.toList = splitFrom separator.toList 0 text.toList := by
  rw [splitOn, List.map_map]
  exact List.map_id'' (fun _ => String.toList_ofList) _

/-- Joining the parts of a text gives it back. -/
theorem intercalate_splitOn {separator : String} (hne : separator ≠ "") (text : String) :
    String.intercalate separator (splitOn separator text) = text := by
  apply String.toList_injective
  rw [String.toList_intercalate, map_toList_splitOn,
    intercalate_splitFrom (fun hnil => hne (String.toList_eq_nil_iff.mp hnil))]

/-- Boundaries, as characters. -/
theorem bounds_iff_splitFrom {separator text : String} :
    Bounds separator text ↔
      splitFrom separator.toList 0 (text.toList ++ separator.toList) =
        splitFrom separator.toList 0 text.toList ++ [[]] := by
  have hinjective : Function.Injective (List.map String.toList) :=
    List.map_injective_iff.mpr fun _ _ h => String.toList_injective h
  rw [Bounds, ← hinjective.eq_iff, List.map_append, map_toList_splitOn, map_toList_splitOn,
    String.toList_append]
  rfl

/-- **A boundary splits a text**: what stands in front of it and what stands behind it are split by
themselves. -/
theorem Bounds.splitOn_append {separator text : String} (h : Bounds separator text)
    (hne : separator ≠ "") (rest : String) :
    splitOn separator (text ++ separator ++ rest) =
      splitOn separator text ++ splitOn separator rest := by
  have hseparator : separator.toList ≠ [] := fun hnil => hne (String.toList_eq_nil_iff.mp hnil)
  rw [splitOn, String.toList_append, String.toList_append, List.append_assoc,
    splitFrom_append_separator hseparator (bounds_iff_splitFrom.mp h), List.map_append]
  rfl

/-- **A text is bounded where splitting finds it again**, as the first parts of whatever follows. -/
theorem bounds_iff {separator : String} (hne : separator ≠ "") (text rest : String) :
    Bounds separator text ↔
      ∃ parts, parts ≠ [] ∧ parts <+: splitOn separator (text ++ separator ++ rest) ∧
        String.intercalate separator parts = text := by
  have hseparator : separator.toList ≠ [] := fun hnil => hne (String.toList_eq_nil_iff.mp hnil)
  constructor
  · intro h
    refine ⟨splitOn separator text, ?_, ?_, intercalate_splitOn hne text⟩
    · exact fun hnil => splitFrom_ne_nil hseparator text.toList (List.map_eq_nil_iff.mp hnil)
    · exact ⟨splitOn separator rest, (h.splitOn_append hne rest).symm⟩
  · rintro ⟨parts, hparts, ⟨more, hmore⟩, rfl⟩
    have hsplit := congrArg (List.map String.toList) hmore
    rw [map_toList_splitOn, List.map_append, String.toList_append, String.toList_append,
      List.append_assoc, String.toList_intercalate] at hsplit
    obtain ⟨hself, hbounded⟩ :=
      splitFrom_intercalate hseparator (by simpa using hparts) hsplit.symm
    rw [bounds_iff_splitFrom, String.toList_intercalate, hbounded, hself]

end Switchboard
