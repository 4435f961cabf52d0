import Switchboard.Proofs.Pattern.Comments

/-!
# Texts in which No Group Captures

The rewriting that makes capturing groups plain gives a text for almost every text, be it a pattern or not:
brackets that are never closed, a backslash at the end, parentheses that do not match. This module says what
it gives without the rewriting. A scan that knows escapes and classes follows the text character by
character (`Place`), and a text is captureless when none of its parentheses that stand outside of both
opens a group that captures.

The rewriting gives captureless texts only, and it keeps each of them as it is. So a second rewriting
changes nothing more (`withoutCaptures_fixed_point`). The two scans have to stay in step for this.
They could only part where the rewriting looks ahead, behind a bracket or a parenthesis; and what it sees
there is still there afterwards, because each text is rewritten to one with the same first character
(`head?_of_withoutCapturesFrom`).

## Main results

* `capturelessFrom_of_withoutCapturesFrom`: what the rewriting gives.
* `withoutCaptures_eq_self_iff`: what it keeps.
* `withoutCaptures_fixed_point`: a second rewriting changes nothing.
-/

namespace Switchboard.Pattern

/-- Where a character of a pattern text stands, seen from the text in front of it. -/
inductive Place where
  | outside
  | escaped
  /-- Behind the bracket that opens a class. -/
  | classOpened
  /-- Behind the caret that may follow it. -/
  | classMarked
  | inClass
  | classEscaped
deriving DecidableEq, Repr

/-- The place behind a character. A bracket that closes is a member of the class when it comes first. -/
def Place.next : Place → Char → Place
  | outside, '\\' => escaped
  | outside, '[' => classOpened
  | outside, _ => outside
  | escaped, _ => outside
  | classOpened, '^' => classMarked
  | inClass, ']' => outside
  | classOpened, '\\' | classMarked, '\\' | inClass, '\\' => classEscaped
  | classOpened, _ | classMarked, _ | inClass, _ => inClass
  | classEscaped, _ => inClass

/-! ### Captureless texts -/

/-- A parenthesis with this behind it opens a group that captures: one with a name, or one without a mark. -/
def Captures (rest : List Char) : Prop := rest.head? ≠ some '?' ∨ "?P<".toList <+: rest

instance : DecidablePred Captures := fun _ => inferInstanceAs (Decidable (_ ∨ _))

/-- In a text that goes on from a place, no parenthesis outside of escapes and classes opens a group that
captures. -/
def CapturelessFrom (place : Place) (text : List Char) : Prop :=
  ∀ front rest, text = front ++ '(' :: rest → front.foldl Place.next place = .outside → ¬ Captures rest

/-- No group of the text captures. -/
def Captureless (text : List Char) : Prop := CapturelessFrom .outside text

theorem capturelessFrom_nil (place : Place) : CapturelessFrom place [] := by
  intro front rest h
  cases front <;> cases h

theorem capturelessFrom_cons_iff {place : Place} {c : Char} {cs : List Char} :
    CapturelessFrom place (c :: cs) ↔
      (place = .outside → c = '(' → ¬ Captures cs) ∧ CapturelessFrom (place.next c) cs := by
  constructor
  · intro h
    refine ⟨fun hplace hc => h [] cs (by rw [hc]; rfl) hplace, fun front rest heq => ?_⟩
    exact h (c :: front) rest (by rw [heq]; rfl)
  · rintro ⟨hfirst, hrest⟩ front rest heq hplace
    cases front with
    | nil =>
        obtain ⟨rfl, rfl⟩ := List.cons.inj heq
        exact hfirst hplace rfl
    | cons d front =>
        obtain ⟨rfl, rfl⟩ := List.cons.inj heq
        exact hrest front rest rfl hplace

instance decidableCapturelessFrom : (place : Place) → (text : List Char) →
    Decidable (CapturelessFrom place text)
  | place, [] => .isTrue (capturelessFrom_nil place)
  | place, c :: cs =>
      have := decidableCapturelessFrom (place.next c) cs
      decidable_of_iff _ capturelessFrom_cons_iff.symm

instance : DecidablePred Captureless := decidableCapturelessFrom .outside

/-- Two places from which the first character leads to the same one. -/
theorem capturelessFrom_congr {place other : Place} {cs : List Char} (hplace : place ≠ .outside)
    (hother : other ≠ .outside) (hnext : ∀ c ∈ cs.head?, place.next c = other.next c) :
    CapturelessFrom place cs ↔ CapturelessFrom other cs := by
  cases cs with
  | nil => exact iff_of_true (capturelessFrom_nil place) (capturelessFrom_nil other)
  | cons c cs => simp [capturelessFrom_cons_iff, hplace, hother, hnext c rfl]

/-! ### What stands at the front -/

/-- The place in a text from which a rewriting goes on. -/
def GroupScan.place : GroupScan → Place
  | .inClass => .inClass
  | .outside | .inName => .outside

theorem capturelessFrom_escape {scan : GroupScan} {c : Char} {cs : List Char} :
    CapturelessFrom scan.place ('\\' :: c :: cs) ↔ CapturelessFrom scan.place cs := by
  cases scan <;> simp [capturelessFrom_cons_iff, GroupScan.place, Place.next]

/-- A backslash at the end of a text escapes nothing. -/
theorem capturelessFrom_outside {c : Char} {cs : List Char} (hescape : c = '\\' → cs = []) (hclass : c ≠ '[')
    (hopen : c ≠ '(') : CapturelessFrom .outside (c :: cs) ↔ CapturelessFrom .outside cs := by
  rw [capturelessFrom_cons_iff, and_iff_right fun _ hc => absurd hc hopen]
  by_cases hslash : c = '\\'
  · rw [hescape hslash]
    exact iff_of_true (capturelessFrom_nil _) (capturelessFrom_nil _)
  · rw [Place.next]
    · exact hslash
    · exact hclass

theorem capturelessFrom_inClass {c : Char} {cs : List Char} (hescape : c = '\\' → cs = []) :
    CapturelessFrom .inClass (c :: cs) ↔
      CapturelessFrom (if c == ']' then GroupScan.outside else .inClass).place cs := by
  rw [capturelessFrom_cons_iff, and_iff_right nofun]
  by_cases hclose : c = ']'
  · subst hclose
    rfl
  rw [if_neg (by simpa using hclose)]
  by_cases hslash : c = '\\'
  · rw [hescape hslash]
    exact iff_of_true (capturelessFrom_nil _) (capturelessFrom_nil _)
  · rw [Place.next]
    · rfl
    · exact hclose
    · exact hslash

/-- Outside of a class a parenthesis must not open a group that captures. -/
theorem capturelessFrom_opening {cs : List Char} :
    CapturelessFrom .outside ('(' :: cs) ↔ ¬ Captures cs ∧ CapturelessFrom .outside cs := by
  simp [capturelessFrom_cons_iff, Place.next]

theorem captures_mark_iff {cs : List Char} : Captures ('?' :: cs) ↔ "P<".toList <+: cs := by
  simp [Captures]

theorem capturelessFrom_mark {cs : List Char} :
    CapturelessFrom .outside ('(' :: '?' :: cs) ↔ ¬ "P<".toList <+: cs ∧ CapturelessFrom .outside cs := by
  rw [capturelessFrom_opening, captures_mark_iff,
    capturelessFrom_outside (fun hc => absurd hc (by decide)) (by decide) (by decide)]

theorem capturelessFrom_plain {cs : List Char} :
    CapturelessFrom .outside ('(' :: '?' :: ':' :: cs) ↔ CapturelessFrom .outside cs := by
  rw [capturelessFrom_mark, and_iff_right (by simp),
    capturelessFrom_outside (fun hc => absurd hc (by decide)) (by decide) (by decide)]

/-- A bracket that closes is the first member of a class. -/
theorem capturelessFrom_class_close {cs : List Char} :
    CapturelessFrom .outside ('[' :: ']' :: cs) ↔ CapturelessFrom .inClass cs := by
  simp [capturelessFrom_cons_iff, Place.next]

theorem capturelessFrom_classMark_close {cs : List Char} :
    CapturelessFrom .outside ('[' :: '^' :: ']' :: cs) ↔ CapturelessFrom .inClass cs := by
  simp [capturelessFrom_cons_iff, Place.next]

theorem capturelessFrom_classMark {cs : List Char} (hclose : cs.head? ≠ some ']') :
    CapturelessFrom .outside ('[' :: '^' :: cs) ↔ CapturelessFrom .inClass cs := by
  have hmarked : CapturelessFrom .outside ('[' :: '^' :: cs) ↔ CapturelessFrom .classMarked cs := by
    simp [capturelessFrom_cons_iff, Place.next]
  refine hmarked.trans (capturelessFrom_congr nofun nofun fun c hc => ?_)
  have hne : c ≠ ']' := fun heq => hclose (heq ▸ hc)
  by_cases hslash : c = '\\'
  · subst hslash
    rfl
  · rw [Place.next, Place.next] <;> assumption

theorem capturelessFrom_class {cs : List Char} (hmark : cs.head? ≠ some '^') (hclose : cs.head? ≠ some ']') :
    CapturelessFrom .outside ('[' :: cs) ↔ CapturelessFrom .inClass cs := by
  have hopened : CapturelessFrom .outside ('[' :: cs) ↔ CapturelessFrom .classOpened cs := by
    simp [capturelessFrom_cons_iff, Place.next]
  refine hopened.trans (capturelessFrom_congr nofun nofun fun c hc => ?_)
  have hneMark : c ≠ '^' := fun heq => hmark (heq ▸ hc)
  have hne : c ≠ ']' := fun heq => hclose (heq ▸ hc)
  by_cases hslash : c = '\\'
  · subst hslash
    rfl
  · rw [Place.next, Place.next] <;> assumption

/-! ### The rewriting -/

/-- Rewritten text starts with the same character. -/
theorem head?_of_withoutCapturesFrom {scan : GroupScan} {cs plain : List Char}
    (h : withoutCapturesFrom scan cs = some plain) (hscan : scan ≠ .inName) : plain.head? = cs.head? := by
  fun_induction withoutCapturesFrom scan cs generalizing plain
  case case1 | case2 | case3 => exact absurd rfl hscan
  case case4 =>
    obtain rfl := Option.some.inj h
    rfl
  all_goals
    obtain ⟨rest, -, rfl⟩ := Option.map_eq_some_iff.mp h
    rfl

theorem head?_ne_of_forall {c : Char} {cs : List Char} (h : ∀ rest, cs = c :: rest → False) :
    cs.head? ≠ some c := by
  intro hhead
  obtain ⟨rest, rfl⟩ := List.head?_eq_some_iff.mp hhead
  exact h rest rfl

/-- A backslash that is no escape is the last character. -/
theorem eq_nil_of_escape {c : Char} {cs : List Char} (h : ∀ d rest, c = '\\' → cs = d :: rest → False)
    (hc : c = '\\') : cs = [] := by
  cases cs with
  | nil => rfl
  | cons d rest => exact (h d rest hc rfl).elim

theorem eq_nil_of_head? {cs rest : List Char} (hhead : rest.head? = cs.head?) (hcs : cs = []) : rest = [] := by
  rw [hcs] at hhead
  exact List.head?_eq_none_iff.mp hhead

/-- No name of a group comes about behind a parenthesis with a mark. -/
theorem not_name_of_withoutCapturesFrom {cs plain : List Char}
    (h : withoutCapturesFrom .outside cs = some plain) (hname : ¬ "P<".toList <+: cs) :
    ¬ "P<".toList <+: plain := by
  rintro ⟨more, hmore⟩
  obtain rfl : 'P' :: '<' :: more = plain := hmore
  obtain ⟨rest, rfl⟩ := List.head?_eq_some_iff.mp (head?_of_withoutCapturesFrom h nofun).symm
  have hpasses := @passes_char 'P' (by decide) (by decide) (by decide) rest
  rw [List.singleton_append] at hpasses
  rw [hpasses] at h
  obtain ⟨tail, htail, heq⟩ := Option.map_eq_some_iff.mp h
  obtain rfl : tail = '<' :: more := by simpa using heq
  obtain ⟨rest, rfl⟩ := List.head?_eq_some_iff.mp (head?_of_withoutCapturesFrom htail nofun).symm
  exact hname ⟨rest, rfl⟩

/-- **No group captures in what the rewriting gives.** -/
theorem capturelessFrom_of_withoutCapturesFrom {scan : GroupScan} {cs plain : List Char}
    (h : withoutCapturesFrom scan cs = some plain) : CapturelessFrom scan.place plain := by
  fun_induction withoutCapturesFrom scan cs generalizing plain with
  | case1 => cases h
  | case2 c cs hc ih => exact ih h
  | case3 c cs hc ih => exact ih h
  | case4 =>
      obtain rfl := Option.some.inj h
      exact capturelessFrom_nil _
  | case5 scan c cs hscan ih =>
      obtain ⟨rest, hrest, rfl⟩ := Option.map_eq_some_iff.mp h
      exact capturelessFrom_escape.mpr (ih hrest)
  | case6 c cs hescape ih =>
      obtain ⟨rest, hrest, rfl⟩ := Option.map_eq_some_iff.mp h
      have hhead := head?_of_withoutCapturesFrom hrest (by split <;> nofun)
      exact (capturelessFrom_inClass fun hc => eq_nil_of_head? hhead (eq_nil_of_escape hescape hc)).mpr (ih hrest)
  | case7 cs ih =>
      obtain ⟨rest, hrest, rfl⟩ := Option.map_eq_some_iff.mp h
      exact capturelessFrom_classMark_close.mpr (ih hrest)
  | case8 cs hclose ih =>
      obtain ⟨rest, hrest, rfl⟩ := Option.map_eq_some_iff.mp h
      have hhead := head?_of_withoutCapturesFrom hrest nofun
      exact (capturelessFrom_classMark (hhead ▸ head?_ne_of_forall hclose)).mpr (ih hrest)
  | case9 cs ih =>
      obtain ⟨rest, hrest, rfl⟩ := Option.map_eq_some_iff.mp h
      exact capturelessFrom_class_close.mpr (ih hrest)
  | case10 cs hmarked hmark hclose ih =>
      obtain ⟨rest, hrest, rfl⟩ := Option.map_eq_some_iff.mp h
      have hhead := head?_of_withoutCapturesFrom hrest nofun
      exact (capturelessFrom_class (hhead ▸ head?_ne_of_forall hmark)
        (hhead ▸ head?_ne_of_forall hclose)).mpr (ih hrest)
  | case11 cs ih =>
      obtain ⟨rest, hrest, rfl⟩ := Option.map_eq_some_iff.mp h
      exact capturelessFrom_plain.mpr (ih hrest)
  | case12 cs hname ih =>
      obtain ⟨rest, hrest, rfl⟩ := Option.map_eq_some_iff.mp h
      refine capturelessFrom_mark.mpr ⟨not_name_of_withoutCapturesFrom hrest ?_, ih hrest⟩
      rintro ⟨more, rfl⟩
      exact hname more rfl
  | case13 cs hname hmark ih =>
      obtain ⟨rest, hrest, rfl⟩ := Option.map_eq_some_iff.mp h
      exact capturelessFrom_plain.mpr (ih hrest)
  | case14 c cs hescape hbracket₁ hbracket₂ hbracket₃ hclass hname hmark hopen ih =>
      obtain ⟨rest, hrest, rfl⟩ := Option.map_eq_some_iff.mp h
      have hhead := head?_of_withoutCapturesFrom hrest nofun
      exact (capturelessFrom_outside (fun hc => eq_nil_of_head? hhead (eq_nil_of_escape hescape hc)) hclass
        hopen).mpr (ih hrest)

/-- **A text in which no group captures is kept.** -/
theorem withoutCapturesFrom_of_capturelessFrom {scan : GroupScan} {cs : List Char} (hscan : scan ≠ .inName)
    (h : CapturelessFrom scan.place cs) : withoutCapturesFrom scan cs = some cs := by
  fun_induction withoutCapturesFrom scan cs with
  | case1 | case2 | case3 => exact absurd rfl hscan
  | case4 => rfl
  | case5 scan c cs _ ih => rw [ih hscan (capturelessFrom_escape.mp h), Option.map_some]
  | case6 c cs hescape ih =>
      rw [ih (by split <;> nofun) ((capturelessFrom_inClass (eq_nil_of_escape hescape)).mp h), Option.map_some]
  | case7 cs ih => rw [ih nofun (capturelessFrom_classMark_close.mp h), Option.map_some]
  | case8 cs hclose ih =>
      rw [ih nofun ((capturelessFrom_classMark (head?_ne_of_forall hclose)).mp h), Option.map_some]
  | case9 cs ih => rw [ih nofun (capturelessFrom_class_close.mp h), Option.map_some]
  | case10 cs hmarked hmark hclose ih =>
      have hmembers :=
        (capturelessFrom_class (head?_ne_of_forall hmark) (head?_ne_of_forall hclose)).mp h
      rw [ih nofun hmembers, Option.map_some]
  | case11 cs => exact absurd ⟨cs, rfl⟩ (capturelessFrom_mark.mp h).1
  | case12 cs hname ih => rw [ih nofun (capturelessFrom_mark.mp h).2, Option.map_some]
  | case13 cs hname hmark => exact absurd (.inl (head?_ne_of_forall hmark)) (capturelessFrom_opening.mp h).1
  | case14 c cs hescape hbracket₁ hbracket₂ hbracket₃ hclass hname hmark hopen ih =>
      rw [ih nofun ((capturelessFrom_outside (eq_nil_of_escape hescape) hclass hopen).mp h), Option.map_some]

/-- **What the rewriting keeps**: the texts in which no group captures. -/
theorem withoutCaptures_eq_self_iff {text : List Char} :
    withoutCaptures text = some text ↔ Captureless text :=
  ⟨fun h => capturelessFrom_of_withoutCapturesFrom h, fun h => withoutCapturesFrom_of_capturelessFrom nofun h⟩

example : Captureless "[(]\\((?:a)(?=b".toList ∧ ¬ Captureless "[]](a)".toList := by decide

/-- **The rewriting reaches a fixed point.** In the text that it gives no group captures, whatever the text was
that it started from, and rewriting that text once more gives the same. -/
theorem withoutCaptures_fixed_point {source plain : List Char} (h : withoutCaptures source = some plain) :
    Captureless plain ∧ withoutCaptures plain = some plain := by
  have hplain : Captureless plain := capturelessFrom_of_withoutCapturesFrom h
  exact ⟨hplain, withoutCaptures_eq_self_iff.mpr hplain⟩

/-- The text is no pattern: a name with a bracket in it, parentheses that do not close, an escape of nothing. -/
theorem withoutCaptures_fixed_point_malformed :
    let source := "\\(a[]()](?P<n[>b(?(c[^](\\](((\\".toList
    let plain := "\\(a[]()](?:b(?(?:c[^](\\](((\\".toList
    withoutCaptures source = some plain ∧ Captureless plain ∧ withoutCaptures plain = some plain := by
  intro source plain
  have hplain : withoutCaptures source = some plain := by decide
  exact ⟨hplain, withoutCaptures_fixed_point hplain⟩

end Switchboard.Pattern
