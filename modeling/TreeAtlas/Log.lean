/-!
# Log lines

Nothing here writes a log. A computation that has something to report returns the lines beside its
value, oldest first, and whoever runs it decides which of them to show.
-/

namespace TreeAtlas

inductive Severity where
  | warn
  | info
  | debug
  deriving DecidableEq, Repr

/-- The part of the program a line comes from. -/
inductive Part where
  | document
  | config
  | fonts
  | bubbles
  | outline
  | panel
  | render
  | command
  deriving DecidableEq, Repr

structure LogLine where
  severity : Severity
  part : Part
  text : String
  deriving DecidableEq, Repr

/-- A value with the lines logged on the way to it. -/
structure Logged (α : Type) where
  value : α
  lines : List LogLine

namespace Logged

def pure {α : Type} (value : α) : Logged α :=
  ⟨value, []⟩

def bind {α β : Type} (x : Logged α) (f : α → Logged β) : Logged β :=
  ⟨(f x.value).value, x.lines ++ (f x.value).lines⟩

def map {α β : Type} (f : α → β) (x : Logged α) : Logged β :=
  ⟨f x.value, x.lines⟩

instance : Monad Logged where
  pure := Logged.pure
  bind := Logged.bind

@[simp] theorem value_pure {α : Type} (a : α) : (Pure.pure a : Logged α).value = a := rfl

@[simp] theorem lines_pure {α : Type} (a : α) : (Pure.pure a : Logged α).lines = [] := rfl

@[simp] theorem value_bind {α β : Type} (x : Logged α) (f : α → Logged β) :
    (x >>= f).value = (f x.value).value := rfl

@[simp] theorem lines_bind {α β : Type} (x : Logged α) (f : α → Logged β) :
    (x >>= f).lines = x.lines ++ (f x.value).lines := rfl

def log (lines : List LogLine) : Logged Unit :=
  ⟨(), lines⟩

end Logged

/-- A computation that may fail and keeps what it logged before it did. -/
abbrev Attempt (ε α : Type) := ExceptT ε Logged α

namespace Attempt

variable {ε ε' α : Type}

/-- The outcome and the lines. -/
def outcome (x : Attempt ε α) : Logged (Except ε α) :=
  x.run

def ofExcept (x : Except ε α) : Attempt ε α :=
  ExceptT.mk (Logged.pure x)

def log (lines : List LogLine) : Attempt ε Unit :=
  ExceptT.lift (Logged.log lines)

/-- Restates the failure. -/
def mapError (f : ε → ε') (x : Attempt ε α) : Attempt ε' α :=
  ExceptT.mk (x.run.map (Except.mapError f))

/-- The outcome of a pure computation, with the lines that a success reports. -/
def reported (x : Except ε α) (report : α → List LogLine) : Attempt ε α :=
  ExceptT.mk ⟨x, match x with | .ok a => report a | .error _ => []⟩

@[simp] theorem value_pure (a : α) :
    (Pure.pure a : Attempt ε α).outcome.value = .ok a := rfl

@[simp] theorem value_ofExcept (x : Except ε α) : (ofExcept x).outcome.value = x := rfl

@[simp] theorem value_reported (x : Except ε α) (report : α → List LogLine) :
    (reported x report).outcome.value = x := rfl

@[simp] theorem value_lift (x : Logged α) :
    (outcome (ExceptT.lift x) : Logged (Except ε α)).value = .ok x.value := rfl

@[simp] theorem value_log (lines : List LogLine) :
    (log lines : Attempt ε Unit).outcome.value = .ok () := rfl

@[simp] theorem lines_pure (a : α) : (Pure.pure a : Attempt ε α).outcome.lines = [] := rfl

@[simp] theorem lines_ofExcept (x : Except ε α) : (ofExcept x).outcome.lines = [] := rfl

@[simp] theorem lines_lift (x : Logged α) :
    (outcome (ExceptT.lift x) : Logged (Except ε α)).lines = x.lines :=
  List.append_nil x.lines

@[simp] theorem lines_log (lines : List LogLine) :
    (log lines : Attempt ε Unit).outcome.lines = lines :=
  lines_lift (Logged.log lines)

theorem value_bind {β : Type} (x : Attempt ε α) (f : α → Attempt ε β) :
    (x >>= f).outcome.value = x.outcome.value.bind fun a => (f a).outcome.value := by
  change (ExceptT.bindCont f x.outcome.value : Logged (Except ε β)).value = _
  cases x.outcome.value with
  | ok a => rfl
  | error e => rfl

/-- What follows a failure is not run and logs nothing. -/
theorem lines_bind {β : Type} (x : Attempt ε α) (f : α → Attempt ε β) :
    (x >>= f).outcome.lines = x.outcome.lines
      ++ match x.outcome.value with
        | .ok a => (f a).outcome.lines
        | .error _ => [] := by
  change x.outcome.lines ++ (ExceptT.bindCont f x.outcome.value : Logged (Except ε β)).lines = _
  cases x.outcome.value with
  | ok a => rfl
  | error e => rfl

end Attempt

end TreeAtlas
