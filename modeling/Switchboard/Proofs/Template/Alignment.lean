import Mathlib.Data.List.Infix
import Switchboard.Message
import Switchboard.Proofs.Template.Parts

/-!
# Alignments

How the words of a message go with the parts of a template, without any pattern. A part takes a
word (`Part.Takes`): a literal takes its own text, a parameter any word that is a value and its
suffix. The words are aligned with the parts when each part in order takes the next word, save
that a parameter with a default may be skipped (`Aligned`).

There may be several alignments. In the preferred one (`Preferred`), from left to right, a
parameter is skipped only where the rest could not be aligned otherwise. The preferred alignment
is the first in the order in which a matcher tries them, but for one thing: a matcher does not
look ahead to the end of the message, and takes a word wherever the rest of the template fits
some of the words that follow. `exists_aligned_of_crossing` is why this comes to the same.

## Main results

* `exists_preferred_iff`, `Preferred.unique`: there is one preferred alignment whenever there is
  an alignment at all.
* `exists_aligned_of_crossing`: when parts fit the first of some words, and fit all of them with
  more words in front, they fit all of them.
-/

namespace Switchboard

/-- What the parameters have taken, in order; nothing for one that was skipped. -/
abbrev Takings := List (String × Option (List Char))

/-- A part takes a word. -/
inductive Part.Takes : Part → List Char → Takings → Prop where
  | literal (text : List Char) : Takes (.literal text) text []
  | word {name : String} {optional : Bool} {value suffix : List Char} (hvalue : value ≠ []) :
      Takes (.parameter name .word optional suffix) (value ++ suffix) [(name, some value)]

/-- The parts take the words in order, and may skip parameters with defaults. -/
inductive Aligned : List Part → List (List Char) → Takings → Prop where
  | nil : Aligned [] [] []
  | takes {part : Part} {parts : List Part} {w : List Char} {ws : List (List Char)}
      {b bs : Takings} (hpart : part.Takes w b) (hparts : Aligned parts ws bs) :
      Aligned (part :: parts) (w :: ws) (b ++ bs)
  | skips {name : String} {parts : List Part} {ws : List (List Char)} {bs : Takings}
      (hparts : Aligned parts ws bs) :
      Aligned (.parameter name .word true [] :: parts) ws ((name, none) :: bs)

/-- The next word can be taken by the part, and the other words by the other parts. -/
def CanTake (part : Part) (parts : List Part) (ws : List (List Char)) : Prop :=
  ∃ w rest b bs, ws = w :: rest ∧ part.Takes w b ∧ Aligned parts rest bs

/-- An alignment in which no parameter is skipped that could have taken a word. -/
inductive Preferred : List Part → List (List Char) → Takings → Prop where
  | nil : Preferred [] [] []
  | takes {part : Part} {parts : List Part} {w : List Char} {ws : List (List Char)}
      {b bs : Takings} (hpart : part.Takes w b) (hparts : Preferred parts ws bs) :
      Preferred (part :: parts) (w :: ws) (b ++ bs)
  | skips {name : String} {parts : List Part} {ws : List (List Char)} {bs : Takings}
      (hcannot : ¬ CanTake (.parameter name .word true []) parts ws)
      (hparts : Preferred parts ws bs) :
      Preferred (.parameter name .word true [] :: parts) ws ((name, none) :: bs)

/-- The preferred alignment is an alignment. -/
theorem Preferred.aligned {parts : List Part} {ws : List (List Char)} {b : Takings}
    (h : Preferred parts ws b) : Aligned parts ws b := by
  induction h with
  | nil => exact .nil
  | takes hpart _ ih => exact .takes hpart ih
  | skips _ _ ih => exact .skips ih

/-- A part takes a word in one way. -/
theorem Part.Takes.unique {part : Part} {w : List Char} {b₁ b₂ : Takings} (h₁ : part.Takes w b₁)
    (h₂ : part.Takes w b₂) : b₁ = b₂ := by
  cases h₁ with
  | literal =>
      cases h₂
      rfl
  | @word name optional value suffix _ =>
      generalize hw : value ++ suffix = w at h₂
      cases h₂ with
      | word _ => rw [List.append_cancel_right hw]

/-- **There is one preferred alignment** at most. -/
theorem Preferred.unique {parts : List Part} {ws : List (List Char)} {b₁ b₂ : Takings}
    (h₁ : Preferred parts ws b₁) (h₂ : Preferred parts ws b₂) : b₁ = b₂ := by
  induction h₁ generalizing b₂ with
  | nil =>
      cases h₂
      rfl
  | takes hpart₁ hparts₁ ih =>
      cases h₂ with
      | takes hpart₂ hparts₂ => rw [hpart₁.unique hpart₂, ih hparts₂]
      | skips hcannot _ => exact absurd ⟨_, _, _, _, rfl, hpart₁, hparts₁.aligned⟩ hcannot
  | skips hcannot _ ih =>
      cases h₂ with
      | takes hpart₂ hparts₂ => exact absurd ⟨_, _, _, _, rfl, hpart₂, hparts₂.aligned⟩ hcannot
      | skips _ hparts₂ => rw [ih hparts₂]

/-- A literal takes its own text and nothing else. -/
theorem preferred_literal_iff {text w : List Char} {parts : List Part} {ws : List (List Char)}
    {b : Takings} :
    Preferred (.literal text :: parts) (w :: ws) b ↔ w = text ∧ Preferred parts ws b := by
  constructor
  · intro h
    cases h with
    | takes hpart hparts =>
        cases hpart
        exact ⟨rfl, hparts⟩
  · rintro ⟨rfl, hparts⟩
    exact .takes (.literal w) hparts

/-- **A preferred alignment exists** whenever there is an alignment. -/
theorem exists_preferred_iff {parts : List Part} {ws : List (List Char)} :
    (∃ b, Preferred parts ws b) ↔ ∃ b, Aligned parts ws b := by
  constructor
  · rintro ⟨b, h⟩
    exact ⟨b, h.aligned⟩
  · rintro ⟨b, h⟩
    induction parts generalizing ws b with
    | nil =>
        cases h
        exact ⟨[], .nil⟩
    | cons part parts ih =>
        cases h with
        | takes hpart hparts =>
            obtain ⟨bs, hbs⟩ := ih _ hparts
            exact ⟨_, .takes hpart hbs⟩
        | @skips name _ _ _ hparts =>
            by_cases hcan : CanTake (.parameter name .word true []) parts ws
            · obtain ⟨w, rest, b, bs, rfl, hpart, hrest⟩ := hcan
              obtain ⟨bs', hbs'⟩ := ih _ hrest
              exact ⟨_, .takes hpart hbs'⟩
            · obtain ⟨bs, hbs⟩ := ih _ hparts
              exact ⟨_, .skips hcan hbs⟩

/-- **Crossing alignments.** Let the parts be aligned with the first words of a list, and also
with the whole list and more words in front of it. Then they are aligned with the whole list.

Both alignments go through the parts side by side. The second has words before those of the
first, and reaches the end of the list at last, so the first can follow it from where they
meet. -/
theorem exists_aligned_of_crossing {parts : List Part} {front back all : List (List Char)}
    {b₁ b₂ : Takings} (h₁ : Aligned parts front b₁) (h₂ : Aligned parts all b₂)
    (hsuffix : front ++ back <:+ all) : ∃ b, Aligned parts (front ++ back) b := by
  induction h₁ generalizing all b₂ with
  | nil =>
      cases h₂
      rw [List.suffix_nil.mp hsuffix]
      exact ⟨[], .nil⟩
  | @takes part parts w ws b bs hpart hparts ih =>
      -- the first alignment takes a word here, and so can the one to be found
      have hnext : ∀ {all' b'}, Aligned parts all' b' → ws ++ back <:+ all' →
          ∃ b, Aligned (part :: parts) (w :: ws ++ back) b := by
        intro all' b' hall hws
        obtain ⟨bs', hbs'⟩ := ih hall hws
        exact ⟨_, .takes hpart hbs'⟩
      cases h₂ with
      | @takes _ _ v vs _ _ hpart₂ hparts₂ =>
          rcases List.suffix_cons_iff.mp hsuffix with heq | hlater
          · rw [heq]
            exact ⟨_, .takes hpart₂ hparts₂⟩
          · exact hnext hparts₂ ((List.suffix_cons w _).trans hlater)
      | skips hparts₂ => exact hnext hparts₂ ((List.suffix_cons w _).trans hsuffix)
  | skips hparts ih =>
      cases h₂ with
      | @takes _ _ v vs _ _ hpart₂ hparts₂ =>
          rcases List.suffix_cons_iff.mp hsuffix with heq | hlater
          · rw [heq]
            exact ⟨_, .takes hpart₂ hparts₂⟩
          · obtain ⟨bs, hbs⟩ := ih hparts₂ hlater
            exact ⟨_, .skips hbs⟩
      | skips hparts₂ =>
          obtain ⟨bs, hbs⟩ := ih hparts₂ hsuffix
          exact ⟨_, .skips hbs⟩

/-! ### Arguments -/

/-- The argument of a parameter: the value taken, or else its default, save that a default of
nothing or of false leaves the parameter out. -/
def argument? (default : Value) : Option (List Char) → Option Argument
  | some value => some (.value (.text (String.ofList value)))
  | none =>
      match default with
      | .null | .bool false => none
      | v => some (.value v)

/-- The arguments that takings come to. -/
def argumentsOf (defaults : Bindings) (b : Takings) : Arguments :=
  b.filterMap fun entry =>
    (argument? (defaults.getD entry.1) entry.2).map fun a => (entry.1, a)

theorem argumentsOf_cons (defaults : Bindings) (name : String) (taken : Option (List Char))
    (b : Takings) :
    argumentsOf defaults ((name, taken) :: b) =
      ((argument? (defaults.getD name) taken).map fun a => (name, a)).toList ++
        argumentsOf defaults b := by
  rw [argumentsOf, List.filterMap_cons]
  cases argument? (defaults.getD name) taken <;> rfl

end Switchboard
