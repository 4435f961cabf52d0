import Switchboard.Proofs.Failure
import Switchboard.Requirement.Collector
import Switchboard.Requirement.Fragment

/-!
# Requirements that Are Accepted

A requirement is read twice. The collector's side says whether it is one at all, and what is picked from the
matched text; the fragment that the matcher is built from says what text is matched. Neither side asks the other.
So each is described on its own here: the requirements for which a collector is made or is not needed
(`Collector.Accepted`), and those that the matcher takes, which hold a pattern or are a literal text
(`requirementFragment_ne_requirement_iff`).

The two then agree. Of a requirement that is accepted, both take the same pattern, whichever shape it
has, and the group to pick is a group of that pattern (`read_alike_of_accepted`). There is no other direction:
the matcher takes a pair without looking at its index, and the index may be no number.

## Main results

* `Collector.check_eq_ok_iff`, `Collector.ofRequirement_eq_ok_iff`: which requirements are accepted.
* `requirementFragment_ne_requirement_iff`: which requirements the matcher takes.
* `read_alike_of_accepted`: both sides read an accepted requirement alike.
-/

namespace Switchboard

/-! ### What a requirement holds -/

/-- The pattern that a value is. -/
def Value.pattern? : Value → Option Pattern
  | .pattern p => some p
  | _ => none

/-- The pattern that a requirement holds. -/
def Value.held? : Value → Option Pattern
  | .pattern p => some p
  | .dict entries => ((Value.entry? entries "regexp").getD .null).pattern?
  | .list (first :: _) | .tuple (first :: _) => first.pattern?
  | _ => none

/-- What stands for the pattern and for the index in a requirement that has parts. -/
def Value.parts? : Value → Option (Value × Value)
  | .dict entries =>
    (Value.entry? entries "regexp").map fun pattern =>
      (pattern, (Value.entry? entries "index").getD .null)
  | .list (first :: more) | .tuple (first :: more) => some (first, more.headD .null)
  | _ => none

/-- A requirement with parts holds the pattern among them. -/
theorem Value.held?_of_parts? {rule pattern index : Value} (h : rule.parts? = some (pattern, index)) :
    rule.held? = pattern.pattern? := by
  cases rule with
  | dict entries =>
      obtain ⟨found, hfound, heq⟩ := Option.map_eq_some_iff.mp h
      obtain ⟨rfl, -⟩ := Prod.mk.inj heq
      rw [Value.held?, hfound, Option.getD_some]
  | list parts | tuple parts =>
      cases parts with
      | nil => cases h
      | cons first more =>
          obtain ⟨rfl, -⟩ := Prod.mk.inj (Option.some.inj h)
          rfl
  | _ => cases h

/-! ### Its collector -/

namespace Collector

/-- The group that a collector names is one of its pattern. -/
def InRange (c : Collector) : Prop :=
  ∀ index, c.index = some index → 0 ≤ index ∧ index ≤ c.pattern.groups

/-- The collector for a pattern and an index. -/
inductive Checked : Value → Value → Collector → Prop where
  /-- Without an index there has to be a group. -/
  | first {p : Pattern} (hgroups : 0 < p.groups) : Checked (.pattern p) .null { pattern := p }
  | indexed {p : Pattern} {n : Int} (hrange : 0 ≤ n ∧ n ≤ p.groups) :
      Checked (.pattern p) (.int n) { pattern := p, index := some n }

/-- **Requirements that are accepted**, with the collector that each calls for, if any. -/
inductive Accepted : Value → Option Collector → Prop where
  | null : Accepted .null none
  | text (s : String) : Accepted (.text s) none
  /-- A pattern without groups is there to be matched only. -/
  | bare {p : Pattern} (hgroups : p.groups = 0) : Accepted (.pattern p) none
  | pattern {p : Pattern} {c : Collector} (h : Checked (.pattern p) .null c) : Accepted (.pattern p) (some c)
  | parts {rule pattern index : Value} {c : Collector} (hparts : rule.parts? = some (pattern, index))
      (h : Checked pattern index c) : Accepted rule (some c)

theorem check_eq_ok_iff {rule pattern index : Value} {c : Collector} :
    check rule pattern index = .ok c ↔ Checked pattern index c := by
  constructor
  · intro h
    cases pattern with
    | pattern p =>
        cases index with
        | null =>
            simp only [check, Pattern.hasCaptures, decide_eq_true_eq] at h
            split at h
            case isTrue hgroups =>
              obtain rfl := Except.ok.inj h
              exact .first hgroups
            case isFalse => cases h
        | int n =>
            rw [check] at h
            split at h
            case isTrue hrange =>
              obtain rfl := Except.ok.inj h
              exact .indexed hrange
            case isFalse => cases h
        | _ => cases h
    | _ => cases h
  · rintro (hgroups | hrange)
    · exact if_pos (decide_eq_true hgroups)
    · exact if_pos hrange

/-- The parts of a requirement decide, of whatever kind it is. Further items of a sequence are only remarked on. -/
theorem outcome_ofRequirement_of_parts? {rule pattern index : Value}
    (h : rule.parts? = some (pattern, index)) :
    (ofRequirement rule).outcome = (check rule pattern index).map some := by
  cases rule with
  | dict entries =>
      obtain ⟨found, hfound, heq⟩ := Option.map_eq_some_iff.mp h
      obtain ⟨rfl, rfl⟩ := Prod.mk.inj heq
      simp only [ofRequirement, hfound, Attempt.outcome_ofExcept]
  | list parts | tuple parts =>
      cases parts with
      | nil => cases h
      | cons first more =>
          obtain ⟨rfl, rfl⟩ := Prod.mk.inj (Option.some.inj h)
          rcases more with - | ⟨index, - | ⟨-, -⟩⟩ <;> rfl
  | _ => cases h

/-- **What the collector of a requirement is**, where there is an answer at all. -/
theorem ofRequirement_eq_ok_iff {rule : Value} {found : Option Collector} :
    (ofRequirement rule).outcome = .ok found ↔ Accepted rule found := by
  constructor
  · intro h
    cases hparts : rule.parts? with
    | some parts =>
        rw [outcome_ofRequirement_of_parts? hparts] at h
        obtain ⟨c, hc, rfl⟩ := Except.map_eq_ok_iff.mp h
        exact .parts hparts (check_eq_ok_iff.mp hc)
    | none =>
        cases rule with
        | null =>
            obtain rfl := Except.ok.inj h
            exact .null
        | text s =>
            obtain rfl := Except.ok.inj h
            exact .text s
        | pattern p =>
            obtain rfl := Except.ok.inj h
            rw [Pattern.hasCaptures]
            by_cases hgroups : 0 < p.groups
            · rw [if_pos (decide_eq_true hgroups)]
              exact .pattern (.first hgroups)
            · rw [if_neg (by simpa using hgroups)]
              exact .bare (Nat.eq_zero_of_not_pos hgroups)
        | dict entries =>
            simp only [ofRequirement, Option.map_eq_none_iff.mp hparts] at h
            cases h
        | list parts | tuple parts =>
            cases parts with
            | nil => cases h
            | cons first more => cases hparts
        | _ => cases h
  · intro h
    cases h with
    | null | text => rfl
    | @bare p hgroups =>
        have hnone : ¬ p.hasCaptures = true := by simp [Pattern.hasCaptures, hgroups]
        exact congrArg Except.ok (if_neg hnone)
    | @pattern p c h =>
        cases h with
        | first hgroups => exact congrArg Except.ok (if_pos (decide_eq_true hgroups))
    | parts hparts h =>
        rw [outcome_ofRequirement_of_parts? hparts, check_eq_ok_iff.mpr h]
        rfl

theorem Checked.pattern?_eq {pattern index : Value} {c : Collector} (h : Checked pattern index c) :
    pattern.pattern? = some c.pattern := by
  cases h <;> rfl

/-- A collector without an index has a group to pick, and with an index it has the group with that index. -/
theorem Checked.group {pattern index : Value} {c : Collector} (h : Checked pattern index c) :
    c.index = none ∧ 0 < c.pattern.groups ∨ ∃ n, c.index = some n ∧ 0 ≤ n ∧ n ≤ c.pattern.groups := by
  cases h with
  | first hgroups => exact .inl ⟨rfl, hgroups⟩
  | indexed hrange => exact .inr ⟨_, rfl, hrange⟩

namespace Accepted

variable {rule : Value} {found : Option Collector} {c : Collector}

theorem exists_checked (h : Accepted rule (some c)) :
    rule.held? = some c.pattern ∧ ∃ pattern index, Checked pattern index c := by
  cases h with
  | pattern h => exact ⟨h.pattern?_eq, _, _, h⟩
  | parts hparts h => exact ⟨(Value.held?_of_parts? hparts).trans h.pattern?_eq, _, _, h⟩

/-- A requirement that is accepted holds a pattern, or is none, or is a literal text. -/
theorem held_or_textual (h : Accepted rule found) :
    (∃ p, rule.held? = some p) ∨ rule = .null ∨ ∃ s, rule = .text s := by
  cases h with
  | null => exact .inr (.inl rfl)
  | text s => exact .inr (.inr ⟨s, rfl⟩)
  | bare | pattern => exact .inl ⟨_, rfl⟩
  | parts hparts h => exact .inl ⟨_, (Value.held?_of_parts? hparts).trans h.pattern?_eq⟩

end Accepted

/-- **Every accepted rule is in range**: a collector made from a requirement names a group of
its own pattern, or none. -/
theorem inRange_of_ofRequirement {rule : Value} {c : Collector}
    (h : (ofRequirement rule).outcome = .ok (some c)) : c.InRange := by
  obtain ⟨-, pattern, index, hchecked⟩ := (ofRequirement_eq_ok_iff.mp h).exists_checked
  intro index hindex
  rcases hchecked.group with ⟨hnone, -⟩ | ⟨n, hn, hrange⟩
  · rw [hnone] at hindex
    cases hindex
  · obtain rfl := Option.some.inj (hn.symm.trans hindex)
    exact hrange

end Collector

/-! ### Its fragment -/

theorem heldFragment_cases (rule held : Value) (name : String) :
    (∃ p, held.pattern? = some p ∧ heldFragment rule name held = patternFragment p) ∨
      (held.pattern? = none ∧ ∃ e, heldFragment rule name held = .error (.requirement e)) := by
  cases held with
  | pattern p => exact .inl ⟨p, rfl, rfl⟩
  | _ => exact .inr ⟨rfl, _, rfl⟩

/-- The pattern text of a requirement is the fragment of the pattern that it holds, or a literal text,
or there is none. -/
theorem requirementFragment_cases (rule : Value) (name : String) :
    (∃ p, rule.held? = some p ∧ requirementFragment rule name = patternFragment p) ∨
      (rule.held? = none ∧ ((∃ s, rule = .text s) ∨
        ∃ e, requirementFragment rule name = .error (.requirement e))) := by
  have hheld : ∀ held, rule.held? = held.pattern? →
      requirementFragment rule name = heldFragment rule name held →
      (∃ p, rule.held? = some p ∧ requirementFragment rule name = patternFragment p) ∨
        (rule.held? = none ∧ ((∃ s, rule = .text s) ∨
          ∃ e, requirementFragment rule name = .error (.requirement e))) := by
    intro held heq hfragment
    rw [heq, hfragment]
    exact (heldFragment_cases rule held name).imp_right fun ⟨hnone, herror⟩ => ⟨hnone, .inr herror⟩
  cases rule with
  | pattern p => exact .inl ⟨p, rfl, rfl⟩
  | text s => exact .inr ⟨rfl, .inl ⟨s, rfl⟩⟩
  | dict entries => exact hheld _ rfl rfl
  | list parts | tuple parts =>
      cases parts with
      | nil => exact .inr ⟨rfl, .inr ⟨_, rfl⟩⟩
      | cons first parts => exact hheld first rfl rfl
  | _ => exact .inr ⟨rfl, .inr ⟨_, rfl⟩⟩

theorem requirementFragment_of_held {rule : Value} {p : Pattern} (h : rule.held? = some p) (name : String) :
    requirementFragment rule name = patternFragment p := by
  rcases requirementFragment_cases rule name with ⟨q, hq, hfragment⟩ | ⟨hnone, -⟩
  · obtain rfl := Option.some.inj (h.symm.trans hq)
    exact hfragment
  · rw [hnone] at h
    cases h

/-- The fragment of a pattern fails, if it does, for its text and not for the requirement. -/
theorem patternFragment_ne_requirement (p : Pattern) (e : RequirementError) :
    patternFragment p ≠ .error (.requirement e) := by
  rw [patternFragment]
  split <;> nofun

/-- **What the matcher takes for a requirement**: a value that holds a pattern, or a literal text. The name of the
parameter does not matter. -/
theorem requirementFragment_ne_requirement_iff {rule : Value} {name : String} :
    (∀ e, requirementFragment rule name ≠ .error (.requirement e)) ↔
      (∃ p, rule.held? = some p) ∨ ∃ s, rule = .text s := by
  constructor
  · intro h
    rcases requirementFragment_cases rule name with ⟨p, hp, -⟩ | ⟨-, htext | ⟨e, herror⟩⟩
    · exact .inl ⟨p, hp⟩
    · exact .inr htext
    · exact absurd herror (h e)
  · rintro (⟨p, hp⟩ | ⟨s, rfl⟩) e
    · rw [requirementFragment_of_held hp]
      exact patternFragment_ne_requirement p e
    · nofun

/-! ### Both -/

/-- **Both sides read a requirement alike.** A requirement that is accepted and not null is not reported by the
matcher, whatever the parameter. When a collector is made for it, the fragment is that of the collector's pattern,
and this pattern has a group to pick: any one without an index, and else the one with the index. -/
theorem read_alike_of_accepted {rule : Value} {found : Option Collector}
    (h : (Collector.ofRequirement rule).outcome = .ok found) (name : String) :
    (rule ≠ .null → ∀ e, requirementFragment rule name ≠ .error (.requirement e)) ∧
      ∀ c, found = some c →
        rule.held? = some c.pattern ∧ requirementFragment rule name = patternFragment c.pattern ∧
          (c.index = none ∧ 0 < c.pattern.groups ∨
            ∃ n, c.index = some n ∧ 0 ≤ n ∧ n ≤ c.pattern.groups) := by
  have haccepted := Collector.ofRequirement_eq_ok_iff.mp h
  constructor
  · intro hnull
    refine requirementFragment_ne_requirement_iff.mpr (haccepted.held_or_textual.imp_right fun htextual => ?_)
    exact htextual.resolve_left hnull
  · rintro c rfl
    obtain ⟨hheld, pattern, index, hchecked⟩ := haccepted.exists_checked
    exact ⟨hheld, requirementFragment_of_held hheld name, hchecked.group⟩

/-- Of a mail address the part behind the sign is picked. -/
theorem read_alike_of_accepted_address :
    ∃ p, Pattern.read "(\\w+)@(\\w+)" {} = .ok p ∧
      (Collector.ofRequirement (.tuple [.pattern p, .int 2])).outcome =
        .ok (some { pattern := p, index := some 2 }) ∧
      Value.tuple [.pattern p, .int 2] ≠ .null ∧
      (∀ e, requirementFragment (.tuple [.pattern p, .int 2]) "host" ≠ .error (.requirement e)) ∧
      requirementFragment (.tuple [.pattern p, .int 2]) "host" = patternFragment p ∧
      patternFragment p = .ok "(?:\\w+)@(?:\\w+)".toList ∧ (2 : Int) ≤ p.groups := by
  obtain ⟨p, hread, hcollector, hplain, hgroups⟩ :
      ∃ p, Pattern.read "(\\w+)@(\\w+)" {} = .ok p ∧
        (Collector.ofRequirement (.tuple [.pattern p, .int 2])).outcome =
          .ok (some { pattern := p, index := some 2 }) ∧
        patternFragment p = .ok "(?:\\w+)@(?:\\w+)".toList ∧ (2 : Int) ≤ p.groups :=
    ⟨_, rfl, rfl, rfl, by decide⟩
  obtain ⟨haccepted, hcollected⟩ := read_alike_of_accepted hcollector "host"
  obtain ⟨-, hfragment, -⟩ := hcollected _ rfl
  exact ⟨p, hread, hcollector, nofun, haccepted nofun, hfragment, hplain, hgroups⟩

/-- The matcher takes more than is accepted: here the index is no number. -/
example : ∃ p, Pattern.read "(\\w+)@(\\w+)" {} = .ok p ∧
    (Collector.ofRequirement (.tuple [.pattern p, .text "2"])).outcome.toOption = none ∧
    requirementFragment (.tuple [.pattern p, .text "2"]) "host" = .ok "(?:\\w+)@(?:\\w+)".toList :=
  ⟨_, rfl, rfl, rfl⟩

end Switchboard
