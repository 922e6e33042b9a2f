/-!
# Logged computations

A computation that can fail and that leaves records on its way. What was recorded before a failure
stays recorded.

* `outcome_bind` : outcomes compose as without a log.
-/

namespace GlyphTables

namespace Log

/-- From the gravest to the most detailed. -/
inductive Level where
  | error
  | warn
  | info
  | debug
  | trace
  deriving DecidableEq

/-- Levels by number: what is shown at one level is shown at all higher ones. -/
def Level.rank : Level → Nat
  | .error => 1
  | .warn => 2
  | .info => 3
  | .debug => 4
  | .trace => 5

def Level.name : Level → String
  | .error => "ERROR"
  | .warn => "WARN"
  | .info => "INFO"
  | .debug => "DEBUG"
  | .trace => "TRACE"

/-- One line of the log; `target` names the part of the program that wrote it. -/
structure Record where
  level : Level
  target : String
  text : String
  deriving DecidableEq

end Log

/-- What a computation has recorded, and how it ended. -/
structure Logged (ε α : Type) where
  records : List Log.Record
  outcome : Except ε α

namespace Logged

variable {ε α β : Type}

/-- Goes on with the result; the records of both parts stand in order. -/
def bind (x : Logged ε α) (f : α → Logged ε β) : Logged ε β :=
  match x.outcome with
  | .error e => ⟨x.records, .error e⟩
  | .ok a => ⟨x.records ++ (f a).records, (f a).outcome⟩

instance : Monad (Logged ε) where
  pure a := ⟨[], .ok a⟩
  bind := bind

/-- Fails without a record. -/
def fail (e : ε) : Logged ε α :=
  ⟨[], .error e⟩

def ofExcept (outcome : Except ε α) : Logged ε α :=
  ⟨[], outcome⟩

def note (record : Log.Record) : Logged ε Unit :=
  ⟨[record], .ok ()⟩

def mapError {ε' : Type} (f : ε → ε') (x : Logged ε α) : Logged ε' α :=
  ⟨x.records, x.outcome.mapError f⟩

/-- The log has no say in how a computation ends. -/
theorem outcome_bind (x : Logged ε α) (f : α → Logged ε β) :
    (x >>= f).outcome = x.outcome >>= fun a => (f a).outcome := by
  change (x.bind f).outcome = _
  unfold bind
  cases h : x.outcome <;> rfl

/-- An error that is put in its own words stays the same. -/
theorem mapError_id (x : Logged ε α) : x.mapError id = x := by
  obtain ⟨records, outcome⟩ := x
  cases outcome <;> rfl

end Logged

end GlyphTables
