import Switchboard.Proofs.Mapper.Registry

/-!
# What the Fallback Can Be

A configuration demands that the fallback, if there is one, is the name of a method (`NamesMethod`), and a new
mapper has the fallback of its configuration. Later the owner of the mapper may choose another one, and this choice
is not checked: all that is asked is whether the mapper is frozen.

So the fallback of a mapper is the one that was chosen last, or else the configured one (`fallback_after`). It
names a method all along exactly when each choice does (`fallback_names_method_iff`), and one choice is enough to
put something in its place that a configuration would never have (`fallback_without_name`).

## Main results

* `Mapper.fallback_perform`, `Mapper.fallback_after`: the fallback after a step and after a history.
* `Mapper.namesMethod_throughout_iff`: when it names a method at each moment of a history.
* `Mapper.fallback_names_method_iff`: both, from the configuration on.
-/

namespace Switchboard

/-- What a configuration demands of the fallback: if there is one, it is the name of a method. -/
def NamesMethod (fallback : Option String) : Prop :=
  ∀ name, fallback = some name → isIdentifier name = true

/-- The fallback of a configuration is the one that was given, and has been checked. -/
theorem Config.fallback_of_make {fallback : Option String} {separator : String} {config : Config}
    (h : Config.make fallback separator = .ok config) :
    config.fallback = fallback ∧ NamesMethod fallback := by
  unfold Config.make at h
  split at h
  · cases h
  cases fallback with
  | none =>
      obtain rfl := Except.ok.inj h
      exact ⟨rfl, nofun⟩
  | some name =>
      dsimp only at h
      split at h
      case isTrue hname =>
        obtain rfl := Except.ok.inj h
        refine ⟨rfl, fun other heq => ?_⟩
        obtain rfl := Option.some.inj heq
        exact hname
      case isFalse => cases h

namespace Mapper

/-- A new mapper has the fallback of its configuration. -/
theorem fallback_of_make {target : Target} {decider : Decider} {name : Option Value} {config : Config}
    {m : Mapper} (h : Mapper.make target decider name config = .ok m) : m.fallback = config.fallback := by
  obtain ⟨oracle, identity, rfl⟩ := exists_eq_of_make h
  rfl

/-! ### Choices -/

/-- The fallback that a step chooses. Once the mapper is frozen there is no choice any more. -/
def fallbackChoice? (m : Mapper) : Step → Option (Option String)
  | .setFallback fallback => if m.frozen then none else some fallback
  | _ => none

/-- The fallbacks that steps choose, in order. -/
def fallbackChoices (m : Mapper) : List Step → List (Option String)
  | [] => []
  | s :: steps => (m.fallbackChoice? s).toList ++ (m.perform s).fallbackChoices steps

/-- **What a step does to the fallback**: the one that it chooses takes the place of the old one. -/
theorem fallback_perform (m : Mapper) (s : Step) :
    (m.perform s).fallback = (m.fallbackChoice? s).getD m.fallback := by
  cases s with
  | map template options =>
      rw [perform_map]
      rfl
  | setFallback fallback =>
      cases h : m.frozen <;> simp [perform, setFallback, fallbackChoice?, h]
  | freeze => rfl
  | handle message => rfl
  | explain message => rfl
  | host target oracle => rfl

/-- **The fallback after steps** is the one that they have chosen last. -/
theorem fallback_after (m : Mapper) (steps : List Step) :
    (m.after steps).fallback = (m.fallbackChoices steps).getLast?.getD m.fallback := by
  induction steps generalizing m with
  | nil => rfl
  | cons s steps ih =>
      rw [after_cons, ih, fallback_perform, fallbackChoices]
      cases m.fallbackChoice? s with
      | none => rfl
      | some fallback =>
          rw [Option.toList_some, List.singleton_append, List.getLast?_cons, Option.getD_some,
            Option.getD_some]

/-- At each moment of a history the fallback names a method: it does so from the start, and each choice does. -/
theorem namesMethod_throughout_iff (m : Mapper) (steps : List Step) :
    (∀ before, before <+: steps → NamesMethod (m.after before).fallback) ↔
      NamesMethod m.fallback ∧ ∀ fallback ∈ m.fallbackChoices steps, NamesMethod fallback := by
  induction steps generalizing m with
  | nil => simp [fallbackChoices]
  | cons s steps ih =>
      have hprefixes : (∀ before, before <+: s :: steps → NamesMethod (m.after before).fallback) ↔
          NamesMethod m.fallback ∧
            ∀ before, before <+: steps → NamesMethod ((m.perform s).after before).fallback := by
        constructor
        · intro h
          exact ⟨h [] List.nil_prefix, fun before hbefore =>
            h (s :: before) (List.cons_prefix_cons.mpr ⟨rfl, hbefore⟩)⟩
        · rintro ⟨hstart, hlater⟩ before hbefore
          rcases List.prefix_cons_iff.mp hbefore with rfl | ⟨more, rfl, hmore⟩
          · exact hstart
          · exact hlater more hmore
      rw [hprefixes, ih, fallback_perform, fallbackChoices]
      cases m.fallbackChoice? s with
      | none => simp
      | some fallback => simp

/-- **When the fallback names a method.** Take a new mapper with a checked configuration through any steps. Its
fallback is then the one that was chosen last before it was frozen, or else that of the configuration. And at
each moment it is the name of a method, if there is one, exactly when that was so of each fallback that was chosen. -/
theorem fallback_names_method_iff {target : Target} {decider : Decider} {name : Option Value}
    {fallback : Option String} {separator : String} {config : Config} {m : Mapper}
    (hconfig : Config.make fallback separator = .ok config)
    (hmake : Mapper.make target decider name config = .ok m) (steps : List Step) :
    (m.after steps).fallback = (m.fallbackChoices steps).getLast?.getD fallback ∧
      ((∀ before, before <+: steps → NamesMethod (m.after before).fallback) ↔
        ∀ choice ∈ m.fallbackChoices steps, NamesMethod choice) := by
  obtain ⟨hfallback, hnames⟩ := Config.fallback_of_make hconfig
  have hstart : m.fallback = fallback := (fallback_of_make hmake).trans hfallback
  constructor
  · rw [fallback_after, hstart]
  · rw [namesMethod_throughout_iff, hstart, and_iff_right hnames]

/-- A fallback is chosen in the hall, and another one that names no method, but too late. -/
theorem fallback_names_method_iff_hall :
    let steps : List Step :=
      [.setFallback (some "help"), .handle { text := "hi bob" }, .setFallback (some "a b")]
    Config.make = .ok {} ∧ Mapper.make hallTarget (.oracle .allowAll) = .ok emptyHall ∧
      emptyHall.fallbackChoices steps = [some "help"] ∧ (emptyHall.after steps).fallback = some "help" ∧
      ∀ before, before <+: steps → NamesMethod (emptyHall.after before).fallback := by
  intro steps
  have hconfig : Config.make = .ok {} := rfl
  have hmake : Mapper.make hallTarget (.oracle .allowAll) = .ok emptyHall := rfl
  have hchoices : emptyHall.fallbackChoices steps = [some "help"] := rfl
  obtain ⟨hfallback, hnames⟩ := fallback_names_method_iff hconfig hmake steps
  rw [hchoices] at hfallback hnames
  refine ⟨hconfig, hmake, hchoices, hfallback, hnames.mpr fun choice hchoice name hname => ?_⟩
  obtain rfl := List.mem_singleton.mp hchoice
  obtain rfl := Option.some.inj hname
  rfl

/-- **A fallback that names no method.** No configuration takes it, but the mapper does. -/
theorem fallback_without_name :
    Config.make (some "a b") = .error (.fallbackNoName "a b") ∧
      Mapper.make hallTarget (.oracle .allowAll) = .ok emptyHall ∧
      (emptyHall.after [.setFallback (some "a b")]).fallback = some "a b" ∧
      ¬ NamesMethod (emptyHall.after [.setFallback (some "a b")]).fallback := by
  refine ⟨rfl, rfl, rfl, fun h => ?_⟩
  have hname : isIdentifier "a b" = true := h "a b" rfl
  exact absurd hname (by decide)

end Mapper

end Switchboard
