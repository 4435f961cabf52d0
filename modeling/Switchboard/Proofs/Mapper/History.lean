import Switchboard.Mapper.Dispatch
import Switchboard.Proofs.Template.Compiled

/-!
# Histories of a Mapper

A mapper is made once and then goes through steps: templates are mapped, the fallback is chosen,
messages are handled and explained, and in between the host program is free to give the target
other members and the oracle another mind. `Mapper.perform` is the mapper after one step, where a
step that fails leaves the mapper as it was, and `Mapper.Reachable` holds of the mappers that some
sequence of steps leads to.

What a step can do to the table of templates is said once, in `Mapper.templates_perform`: nothing,
or one compiled template more at its end. From this every reachable table consists of sound
templates (`Mapper.Reachable.sound`).
-/

namespace Switchboard.Mapper

/-- What can be done with a mapper, or happen around it. -/
inductive Step where
  | map (template : Value) (options : TemplateOptions)
  | setFallback (fallback : Option String)
  | freeze
  | handle (message : Message)
  | explain (message : Message)
  /-- The host program gives the target other members and the oracle another mind. -/
  | host (target : Target) (oracle : Oracle)

/-- The mapper after a step. A step that fails changes nothing. -/
def perform (m : Mapper) : Step → Mapper
  | .map template options =>
      match (m.map template options).outcome with
      | .ok (mapped, _) => mapped
      | .error _ => m
  | .setFallback fallback =>
      match m.setFallback fallback with
      | .ok changed => changed
      | .error _ => m
  | .freeze => m.freeze
  | .handle message => (m.handle message).value.1
  | .explain message => (m.explain message).1
  | .host target oracle => { m with target, oracle }

/-- The mappers that come about: made from a checked configuration, then changed by steps. -/
inductive Reachable : Mapper → Prop
  | made {target : Target} {decider : Decider} {name : Option Value} {fallback : Option String}
      {separator : String} {config : Config} {m : Mapper} :
      Config.make fallback separator = .ok config →
      Mapper.make target decider name config = .ok m → Reachable m
  | step {m : Mapper} (s : Step) : Reachable m → Reachable (m.perform s)

/-! ### What one step does -/

@[simp] theorem templates_freeze (m : Mapper) : m.freeze.templates = m.templates := rfl

@[simp] theorem target_freeze (m : Mapper) : m.freeze.target = m.target := rfl

@[simp] theorem oracle_freeze (m : Mapper) : m.freeze.oracle = m.oracle := rfl

@[simp] theorem fallback_freeze (m : Mapper) : m.freeze.fallback = m.fallback := rfl

@[simp] theorem fst_handle (m : Mapper) (message : Message) :
    (m.handle message).value.1 = m.freeze := rfl

/-- Handling a message is to go through the templates from the first one on. -/
theorem snd_handle (m : Mapper) (message : Message) :
    (m.handle message).value.2 = (m.freeze.tryTemplates message [] m.templates).value := rfl

@[simp] theorem fst_explain (m : Mapper) (message : Message) :
    (m.explain message).1 = m.freeze := rfl

/-- A new mapper has the settings of its configuration, and nothing else in it. -/
theorem exists_eq_of_make {target : Target} {decider : Decider} {name : Option Value}
    {config : Config} {m : Mapper} (h : Mapper.make target decider name config = .ok m) :
    ∃ oracle identity,
      m = { target, oracle, identity, separator := config.separator, fallback := config.fallback } := by
  unfold make at h
  split at h
  · cases h
  · split at h
    · cases h
    · exact ⟨_, _, (Except.ok.inj h).symm⟩

/-- A new mapper has no templates. -/
theorem templates_of_make {target : Target} {decider : Decider} {name : Option Value}
    {config : Config} {m : Mapper} (h : Mapper.make target decider name config = .ok m) :
    m.templates = [] := by
  obtain ⟨oracle, identity, rfl⟩ := exists_eq_of_make h
  rfl

/-- Mapping compiles first and looks at the frozen flag afterwards. -/
theorem outcome_map (m : Mapper) (template : Value) (options : TemplateOptions) :
    (m.map template options).outcome =
      (Template.compile m.identity template options m.separator .mapper).outcome.mapError
          MapError.compile >>= fun t =>
        if m.frozen then .error (.frozen m.identity)
        else .ok ({ m with templates := m.templates ++ [t] }, t) := by
  simp only [map, Attempt.outcome_bind, Attempt.outcome_adapt]
  congr 1
  funext t
  cases m.respondsTo t.action <;> cases m.frozen <;> rfl

/-- **What mapping does.** A template is mapped exactly when it can be compiled and the mapper is
not frozen; it then stands after the others, and nothing else has changed. -/
theorem map_eq_ok_iff {m mapped : Mapper} {template : Value} {options : TemplateOptions}
    {t : Template} :
    (m.map template options).outcome = .ok (mapped, t) ↔
      (Template.compile m.identity template options m.separator .mapper).outcome = .ok t ∧
        m.frozen = false ∧ mapped = { m with templates := m.templates ++ [t] } := by
  rw [outcome_map, Except.bind_eq_ok_iff]
  simp only [Except.mapError_eq_ok_iff]
  constructor
  · rintro ⟨t', ht', h⟩
    cases hfrozen : m.frozen with
    | true => simp [hfrozen] at h
    | false =>
        rw [hfrozen] at h
        obtain ⟨rfl, rfl⟩ := Prod.mk.inj (Except.ok.inj h)
        exact ⟨ht', rfl, rfl⟩
  · rintro ⟨ht, hfrozen, rfl⟩
    exact ⟨t, ht, by simp [hfrozen]⟩

/-- **What a step does to the table**: it leaves it as it is, or adds one compiled template at
its end. -/
theorem templates_perform (m : Mapper) (s : Step) :
    (m.perform s).templates = m.templates ∨
      ∃ template options t,
        (Template.compile m.identity template options m.separator .mapper).outcome = .ok t ∧
          (m.perform s).templates = m.templates ++ [t] := by
  cases s with
  | map template options =>
      cases h : (m.map template options).outcome with
      | error e => simp [perform, h]
      | ok result =>
          obtain ⟨mapped, t⟩ := result
          obtain ⟨hcompile, -, rfl⟩ := map_eq_ok_iff.mp h
          exact .inr ⟨template, options, t, hcompile, by simp [perform, h]⟩
  | setFallback fallback =>
      left
      cases h : m.frozen <;> simp [perform, setFallback, h]
  | freeze => exact .inl rfl
  | handle message => exact .inl rfl
  | explain message => exact .inl rfl
  | host target oracle => exact .inl rfl

/-! ### What every history does -/

/-- **Reachable tables are sound**: every template was compiled, and keeps what compiling has
checked. -/
theorem Reachable.sound {m : Mapper} (h : m.Reachable) {t : Template} (ht : t ∈ m.templates) :
    t.Sound := by
  induction h with
  | made _ hmake =>
      rw [templates_of_make hmake] at ht
      cases ht
  | @step m s _ ih =>
      rcases templates_perform m s with hsame | ⟨template, options, new, hcompile, hmore⟩
      · exact ih (hsame ▸ ht)
      · rw [hmore] at ht
        rcases List.mem_append.mp ht with hold | hnew
        · exact ih hold
        · obtain rfl := List.mem_singleton.mp hnew
          exact Template.sound_of_compile hcompile

end Switchboard.Mapper
