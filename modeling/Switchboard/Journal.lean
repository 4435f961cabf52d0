/-!
# Journals

What the library has to say besides its answers goes into a journal: remarks of two levels, each in the
channel of the part that makes it. A computation in `Journal` has a value and the remarks made on the way, in
their order. Remarks never influence a value, and the lemmas at the end let a proof about values leave them
aside.
-/

namespace Switchboard

/-- How much a remark matters. -/
inductive Level where
  | debug
  | warning
deriving DecidableEq, Repr, Inhabited

/-- The name of a level. -/
def Level.name : Level → String
  | debug => "DEBUG"
  | warning => "WARNING"

/-- The part of the library that makes a remark. -/
inductive Channel where
  | template
  | mapper
  | permission
deriving DecidableEq, Repr, Inhabited

/-- The name of a channel. -/
def Channel.name : Channel → String
  | template => "msgmap.template"
  | mapper => "msgmap.mapper"
  | permission => "msgmap.auth"

/-- A remark. -/
structure Remark where
  level : Level
  channel : Channel
  text : String
deriving DecidableEq, Repr, Inhabited

/-- A value with the remarks made on the way to it. -/
structure Journal (α : Type) where
  value : α
  remarks : List Remark := []
deriving Repr, Inhabited

namespace Journal

instance : Monad Journal where
  pure a := { value := a }
  bind x f := { value := (f x.value).value, remarks := x.remarks ++ (f x.value).remarks }

/-- Makes one remark. -/
def remark (level : Level) (channel : Channel) (text : String) : Journal Unit :=
  { value := (), remarks := [{ level, channel, text }] }

/-- Makes a debug remark. -/
def debug (channel : Channel) (text : String) : Journal Unit := remark .debug channel text

/-- Makes a warning. -/
def warn (channel : Channel) (text : String) : Journal Unit := remark .warning channel text

@[simp] theorem value_pure {α : Type} (a : α) : (pure a : Journal α).value = a := rfl

@[simp] theorem value_bind {α β : Type} (x : Journal α) (f : α → Journal β) :
    (x >>= f).value = (f x.value).value := rfl

@[simp] theorem remarks_pure {α : Type} (a : α) : (pure a : Journal α).remarks = [] := rfl

@[simp] theorem remarks_bind {α β : Type} (x : Journal α) (f : α → Journal β) :
    (x >>= f).remarks = x.remarks ++ (f x.value).remarks := rfl

end Journal

/-- A computation that keeps a journal and may fail. What was remarked before a failure stays. -/
abbrev Attempt (ε α : Type) := ExceptT ε Journal α

namespace Attempt

/-- The outcome of an attempt, without the remarks. -/
def outcome {ε α : Type} (x : Attempt ε α) : Except ε α := (ExceptT.run x).value

/-- A failure as an attempt. -/
def ofExcept {ε α : Type} (x : Except ε α) : Attempt ε α := ExceptT.mk (pure x)

@[simp] theorem outcome_pure {ε α : Type} (a : α) : (pure a : Attempt ε α).outcome = .ok a := rfl

@[simp] theorem outcome_throw {ε α : Type} (e : ε) : (throw e : Attempt ε α).outcome = .error e := rfl

@[simp] theorem outcome_ofExcept {ε α : Type} (x : Except ε α) : (ofExcept x).outcome = x := rfl

@[simp] theorem outcome_lift {ε α : Type} (x : Journal α) :
    (liftM x : Attempt ε α).outcome = .ok x.value := rfl

@[simp] theorem outcome_adapt {ε δ α : Type} (f : ε → δ) (x : Attempt ε α) :
    outcome (ExceptT.adapt f x) = x.outcome.mapError f := rfl

@[simp] theorem value_run {ε α : Type} (x : Attempt ε α) : (ExceptT.run x).value = x.outcome := rfl

@[simp] theorem outcome_bind {ε α β : Type} (x : Attempt ε α) (f : α → Attempt ε β) :
    (x >>= f).outcome = x.outcome >>= fun a => (f a).outcome := by
  simp only [outcome, ExceptT.run_bind, Journal.value_bind]
  cases h : (ExceptT.run x).value <;> rfl

end Attempt

end Switchboard
