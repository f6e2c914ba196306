import DebrisDisk.Run.State

/-!
# Diagnostics sinks

A sink receives the records of a run in order and is told when the run ends. It may refuse either.
`MemorySink` keeps the records. `Channel` hands them to a receiver, which may disappear.
-/

namespace DebrisDisk

/-- A receiver of records. Both operations give the sink afterwards, also when they are refused. -/
class DiagnosticsSink (α : outParam Type) (σ : Type) where
  emit : σ → StepRecord α → σ × Except SinkError Unit
  finish : σ → σ × Except SinkError Unit

/-- A sink that keeps every record. -/
structure MemorySink (α : Type) where
  records : List (StepRecord α)
  finished : Bool
  deriving DecidableEq, Repr

namespace MemorySink
variable {α : Type}

/-- No records yet. -/
def empty : MemorySink α := { records := [], finished := false }

/-- Keeps a record unless the records have ended. -/
def emit (s : MemorySink α) (r : StepRecord α) : MemorySink α × Except SinkError Unit :=
  if s.finished then (s, .error .finished) else ({ s with records := s.records ++ [r] }, .ok ())

/-- Ends the records. -/
def finish (s : MemorySink α) : MemorySink α × Except SinkError Unit :=
  ({ s with finished := true }, .ok ())

instance : DiagnosticsSink α (MemorySink α) := ⟨emit, finish⟩

end MemorySink

/-- A queue of records between a run and a receiver. -/
structure Channel (α : Type) where
  waiting : List (StepRecord α)
  /-- The run may still send. -/
  sending : Bool
  connected : Bool
  deriving DecidableEq, Repr

namespace Channel
variable {α : Type}

/-- A queue with both ends open. -/
def empty : Channel α := { waiting := [], sending := true, connected := true }

/-- Sends a record; refused once the records have ended or nobody receives. -/
def emit (c : Channel α) (r : StepRecord α) : Channel α × Except SinkError Unit :=
  if c.sending = false then (c, .error .finished)
  else if c.connected = false then (c, .error .disconnected)
  else ({ c with waiting := c.waiting ++ [r] }, .ok ())

/-- Ends the records. -/
def finish (c : Channel α) : Channel α × Except SinkError Unit :=
  ({ c with sending := false }, .ok ())

/-- The receiver goes away, and what waited is lost. -/
def disconnect (c : Channel α) : Channel α := { c with waiting := [], connected := false }

/-- The receiver takes what waits. -/
def receive (c : Channel α) : Channel α × List (StepRecord α) :=
  ({ c with waiting := [] }, c.waiting)

instance : DiagnosticsSink α (Channel α) := ⟨emit, finish⟩

end Channel
end DebrisDisk
