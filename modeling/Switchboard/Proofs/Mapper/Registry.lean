import Switchboard.Proofs.Mapper.Dispatch

/-!
# The Registry Only Grows

The registry of a mapper is its table of templates, its fallback and the frozen flag. Templates are
added and the fallback is chosen until the mapper is frozen, by its owner or by the first message;
from then on the registry stays as it is.

A mapper is followed through any list of steps (`Mapper.after`), among them steps that fail. What
one step does is said by three lemmas: it adds the template that it returns, if it returns one
(`templates_perform_eq`), it keeps a frozen registry (`frozen_perform`), and when it is refused it
changes nothing (`perform_of_refuses`). The last of these is about results, since `Mapper.map` and
`Mapper.setFallback` hand out a new mapper only when they succeed. That nothing has been changed on
the way to a failure either is seen from the same operations as statements on a mapper that is
changed in place (`Change`): they leave exactly the mapper that `perform` speaks of
(`Change.run_map`, `Change.run_setFallback`).

## Main results

* `Mapper.registry_only_grows`: the table is the list of the templates returned, refused steps
  change nothing, messages freeze, and a frozen registry stays the same for ever.
-/

namespace Switchboard.Mapper

/-! ### Histories -/

/-- The mapper after steps, in order. -/
def after (m : Mapper) (steps : List Step) : Mapper := steps.foldl perform m

/-- The template that a step returns: the one that it has mapped. -/
def returned? (m : Mapper) : Step → Option Template
  | .map template options =>
      match (m.map template options).outcome with
      | .ok (_, t) => some t
      | .error _ => none
  | _ => none

/-- The templates that steps return, in order. -/
def returned (m : Mapper) : List Step → List Template
  | [] => []
  | s :: steps => (m.returned? s).toList ++ (m.perform s).returned steps

/-- A step that would change the registry fails. -/
def Refuses (m : Mapper) : Step → Prop
  | .map template options => ∃ e, (m.map template options).outcome = .error e
  | .setFallback fallback => ∃ e, m.setFallback fallback = .error e
  | _ => False

@[simp] theorem after_nil (m : Mapper) : m.after [] = m := rfl

@[simp] theorem after_cons (m : Mapper) (s : Step) (steps : List Step) :
    m.after (s :: steps) = (m.perform s).after steps := rfl

theorem after_append (m : Mapper) (steps more : List Step) :
    m.after (steps ++ more) = (m.after steps).after more :=
  List.foldl_append

/-- Steps lead from what has come about to what comes about. -/
theorem Reachable.after {m : Mapper} (h : m.Reachable) (steps : List Step) :
    (m.after steps).Reachable := by
  induction steps generalizing m with
  | nil => exact h
  | cons s steps ih => exact ih (h.step s)

/-! ### What one step does -/

@[simp] theorem frozen_freeze (m : Mapper) : m.freeze.frozen = true := rfl

/-- A refused step leaves the mapper as it was. -/
theorem perform_of_refuses {m : Mapper} {s : Step} (h : m.Refuses s) : m.perform s = m := by
  cases s with
  | map template options =>
      obtain ⟨e, he⟩ := h
      simp only [perform, he]
  | setFallback fallback =>
      obtain ⟨e, he⟩ := h
      simp only [perform, he]
  | freeze => cases h
  | handle message => cases h
  | explain message => cases h
  | host target oracle => cases h

/-- A frozen mapper maps nothing. -/
theorem refuses_map {m : Mapper} (h : m.frozen = true) (template : Value)
    (options : TemplateOptions) : m.Refuses (.map template options) := by
  cases hmap : (m.map template options).outcome with
  | error e => exact ⟨e, hmap⟩
  | ok result =>
      obtain ⟨-, hopen, -⟩ := map_eq_ok_iff.mp hmap
      rw [h] at hopen
      cases hopen

/-- A frozen mapper takes no fallback. -/
theorem refuses_setFallback {m : Mapper} (h : m.frozen = true) (fallback : Option String) :
    m.Refuses (.setFallback fallback) :=
  ⟨.frozen m.identity, by simp [setFallback, h]⟩

/-- Mapping adds the template that it returns, if it returns one, and changes nothing else. -/
theorem perform_map (m : Mapper) (template : Value) (options : TemplateOptions) :
    m.perform (.map template options) =
      { m with templates := m.templates ++ (m.returned? (.map template options)).toList } := by
  cases hmap : (m.map template options).outcome with
  | error e => simp [perform, returned?, hmap]
  | ok result =>
      obtain ⟨mapped, t⟩ := result
      obtain ⟨-, -, rfl⟩ := map_eq_ok_iff.mp hmap
      simp [perform, returned?, hmap]

/-- **What a step adds**: the template that it returns, behind the others. -/
theorem templates_perform_eq (m : Mapper) (s : Step) :
    (m.perform s).templates = m.templates ++ (m.returned? s).toList := by
  cases s with
  | map template options => rw [perform_map]
  | setFallback fallback =>
      cases h : m.frozen <;> simp [perform, setFallback, returned?, h]
  | freeze => simp [perform, returned?]
  | handle message => simp [perform, returned?]
  | explain message => simp [perform, returned?]
  | host target oracle => simp [perform, returned?]

/-- The two mappers have the same registry. -/
structure SameRegistry (m other : Mapper) : Prop where
  templates_eq : other.templates = m.templates
  fallback_eq : other.fallback = m.fallback
  frozen_eq : other.frozen = m.frozen

theorem SameRegistry.refl (m : Mapper) : m.SameRegistry m := ⟨rfl, rfl, rfl⟩

theorem SameRegistry.trans {a b c : Mapper} (hab : a.SameRegistry b) (hbc : b.SameRegistry c) :
    a.SameRegistry c :=
  ⟨hbc.templates_eq.trans hab.templates_eq, hbc.fallback_eq.trans hab.fallback_eq,
    hbc.frozen_eq.trans hab.frozen_eq⟩

/-- **A step keeps a frozen registry.** -/
theorem sameRegistry_perform {m : Mapper} (h : m.frozen = true) (s : Step) :
    m.SameRegistry (m.perform s) := by
  have hfreeze : m.SameRegistry m.freeze := ⟨rfl, rfl, h.symm⟩
  cases s with
  | map template options =>
      rw [perform_of_refuses (refuses_map h template options)]
      exact .refl m
  | setFallback fallback =>
      rw [perform_of_refuses (refuses_setFallback h fallback)]
      exact .refl m
  | freeze => exact hfreeze
  | handle message => exact hfreeze
  | explain message => exact hfreeze
  | host target oracle => exact ⟨rfl, rfl, rfl⟩

/-! ### What every history does -/

/-- The table after steps is the one before them and the templates that they return. -/
theorem templates_after (m : Mapper) (steps : List Step) :
    (m.after steps).templates = m.templates ++ m.returned steps := by
  induction steps generalizing m with
  | nil => simp [returned]
  | cons s steps ih =>
      rw [after_cons, ih, templates_perform_eq, returned, List.append_assoc]

/-- A frozen registry is kept by all steps. -/
theorem sameRegistry_after {m : Mapper} (h : m.frozen = true) (steps : List Step) :
    m.SameRegistry (m.after steps) := by
  induction steps generalizing m with
  | nil => exact .refl m
  | cons s steps ih =>
      have hstep := sameRegistry_perform h s
      exact hstep.trans (ih (hstep.frozen_eq.trans h))

/-! ### Changing a mapper in place -/

/-- Statements on a mapper that they change, one after the other. What has been changed before a
failure stays changed. -/
abbrev Change (α : Type) := ExceptT MapError (StateM Mapper) α

namespace Change

/-- Fails on a frozen mapper. -/
def requireOpen : Change Unit := do
  let m ← get
  if m.frozen then throw (.frozen m.identity)

/-- Adds a template that has been compiled, unless the mapper is frozen. -/
def add (compiled : Except MapError Template) : Change Template := do
  let t ← ExceptT.mk (pure compiled)
  requireOpen
  modify fun m => { m with templates := m.templates ++ [t] }
  return t

/-- Mapping: the template is compiled, the mapper has to be open, and the template is added. -/
def map (template : Value) (options : TemplateOptions) : Change Template := do
  let m ← get
  add ((Template.compile m.identity template options m.separator .mapper).outcome.mapError
    MapError.compile)

/-- Choosing the fallback: the mapper has to be open, and the fallback is replaced. -/
def setFallback (fallback : Option String) : Change Unit := do
  requireOpen
  modify fun m => { m with fallback }

theorem run_get_bind {α : Type} (f : Mapper → Change α) (m : Mapper) :
    (get >>= f).run.run m = (f m).run.run m := rfl

/-- Mapping in place has the result of mapping, and leaves the mapper after that step. -/
theorem run_map (m : Mapper) (template : Value) (options : TemplateOptions) :
    (map template options).run.run m =
      ((m.map template options).outcome.map (·.2), m.perform (.map template options)) := by
  rw [map, run_get_bind, perform, outcome_map]
  generalize (Template.compile m.identity template options m.separator .mapper).outcome = compiled
  cases compiled with
  | error e => rfl
  | ok t =>
      obtain ⟨target, oracle, identity, separator, fallback, templates, frozen⟩ := m
      cases frozen <;> rfl

/-- Choosing the fallback in place leaves the mapper after that step. -/
theorem run_setFallback (m : Mapper) (fallback : Option String) :
    (setFallback fallback).run.run m =
      ((m.setFallback fallback).map fun _ => (), m.perform (.setFallback fallback)) := by
  obtain ⟨target, oracle, identity, separator, fallback, templates, frozen⟩ := m
  cases frozen <;> rfl

end Change

/-! ### The main result -/

/-- **The registry only grows.** Take a new mapper through any steps. Its table then holds the
templates that these have returned, in their order, and nothing else. A step that is refused there
leaves the mapper as it is. Handling and explaining a message freeze it, whatever becomes of the
message. Once the mapper is frozen, no further steps change its registry, every mapping and every
choice of a fallback is refused, and so it stays frozen. -/
theorem registry_only_grows {target : Target} {decider : Decider} {name : Option Value}
    {config : Config} {m : Mapper} (hmake : Mapper.make target decider name config = .ok m)
    (steps : List Step) :
    (m.after steps).templates = m.returned steps ∧
    (∀ s, (m.after steps).Refuses s → (m.after steps).perform s = m.after steps) ∧
    (∀ message, ((m.after steps).perform (.handle message)).frozen = true ∧
      ((m.after steps).perform (.explain message)).frozen = true) ∧
    ((m.after steps).frozen = true → ∀ more,
      (m.after steps).SameRegistry (m.after (steps ++ more)) ∧
      (∀ template options, (m.after (steps ++ more)).Refuses (.map template options)) ∧
      ∀ fallback, (m.after (steps ++ more)).Refuses (.setFallback fallback)) := by
  refine ⟨?_, fun s => perform_of_refuses, fun message => ⟨rfl, rfl⟩, ?_⟩
  · rw [templates_after, templates_of_make hmake, List.nil_append]
  · intro hfrozen more
    have hsame := sameRegistry_after hfrozen more
    rw [← after_append] at hsame
    have hstill := hsame.frozen_eq.trans hfrozen
    exact ⟨hsame, refuses_map hstill, refuses_setFallback hstill⟩

/-- A day in the hall: a template is mapped, a broken one is not, the fallback is chosen, the porter
is greeted and fails, and what comes after is too late. -/
def hallDay : List Step :=
  [.map (.text "hi :who") { action := some "greet" }, .map (.text "hi [") {},
    .setFallback (some "help"), .handle { text := "hi bob" }, .map (.text "bye") {},
    .setFallback none]

/-- At the end of the day the hall has the one template that was mapped in time, and the fallback
that was chosen in time. -/
theorem registry_only_grows_hall :
    Mapper.make hallTarget (.oracle .allowAll) = .ok emptyHall ∧
      (emptyHall.after hallDay).frozen = true ∧
      (emptyHall.after hallDay).templates.map (·.text) = ["hi :who"] ∧
      (emptyHall.after hallDay).templates = emptyHall.returned hallDay ∧
      (emptyHall.after hallDay).fallback = some "help" ∧
      (emptyHall.after (hallDay ++ [.map (.text "wave") {}])).SameRegistry
        (emptyHall.after hallDay) := by
  have hmake : Mapper.make hallTarget (.oracle .allowAll) = .ok emptyHall := rfl
  have hfrozen : (emptyHall.after hallDay).frozen = true := by decide
  obtain ⟨htable, -, -, hkept⟩ := registry_only_grows hmake hallDay
  obtain ⟨hsame, -, -⟩ := hkept hfrozen [.map (.text "wave") {}]
  exact ⟨hmake, hfrozen, by decide, htable, by decide,
    hsame.templates_eq.symm, hsame.fallback_eq.symm, hsame.frozen_eq.symm⟩

end Switchboard.Mapper
