/-!
This module contains the pool that runs jobs: one worker takes them first in, first out, and new
requests are refused while too many jobs are queued, if the pool is set to shed.
-/

namespace PageDispatch

inductive Backpressure where
  | block
  | shed
  deriving DecidableEq, Repr

structure PoolConfig where
  workers : UInt64
  queueBound : UInt64
  backpressure : Backpressure
  stackSize : UInt64
  deriving DecidableEq, Repr

namespace PoolConfig

def default : PoolConfig where
  workers := 4
  queueBound := 1024
  backpressure := .block
  stackSize := 0x10000

end PoolConfig

/--
What a pool counts, in words that wrap around. The depth is the number of jobs that are queued or
running.
-/
structure PoolMetrics where
  dispatched : UInt64
  completed : UInt64
  panicked : UInt64
  shed : UInt64
  depth : UInt64
  deriving DecidableEq, Repr

namespace PoolMetrics

def zero : PoolMetrics := ⟨0, 0, 0, 0, 0⟩

def recordDispatch (m : PoolMetrics) : PoolMetrics :=
  { m with dispatched := m.dispatched + 1, depth := m.depth + 1 }

def recordCompletion (m : PoolMetrics) : PoolMetrics :=
  { m with completed := m.completed + 1, depth := m.depth - 1 }

def recordPanic (m : PoolMetrics) : PoolMetrics := { m with panicked := m.panicked + 1 }

def recordShed (m : PoolMetrics) : PoolMetrics := { m with shed := m.shed + 1 }

end PoolMetrics

/-- A pool of jobs: those that wait, first one first, and the one that runs. -/
structure Pool (ι : Type) where
  queueBound : UInt64
  backpressure : Backpressure
  waiting : List ι
  running : Option ι
  metrics : PoolMetrics

namespace Pool

variable {ι : Type}

def new (config : PoolConfig) : Pool ι where
  queueBound := config.queueBound
  backpressure := config.backpressure
  waiting := []
  running := none
  metrics := .zero

def submit (p : Pool ι) (job : ι) : Pool ι :=
  { p with waiting := p.waiting ++ [job], metrics := p.metrics.recordDispatch }

def isFull (p : Pool ι) : Bool :=
  p.backpressure == .shed && decide (p.queueBound ≤ p.metrics.depth)

def tryAdmit (p : Pool ι) : Bool × Pool ι :=
  if p.isFull then (false, { p with metrics := p.metrics.recordShed }) else (true, p)

def start? (p : Pool ι) : Option (ι × Pool ι) :=
  match p.running, p.waiting with
  | none, job :: rest => some (job, { p with waiting := rest, running := some job })
  | _, _ => none

def finish (p : Pool ι) (panicked : Bool) : Pool ι :=
  match p.running with
  | none => p
  | some _ =>
    let metrics := if panicked then p.metrics.recordPanic else p.metrics
    { p with running := none, metrics := metrics.recordCompletion }

@[simp]
theorem waiting_submit (p : Pool ι) (job : ι) : (p.submit job).waiting = p.waiting ++ [job] := rfl

@[simp]
theorem running_submit (p : Pool ι) (job : ι) : (p.submit job).running = p.running := rfl

@[simp]
theorem waiting_tryAdmit (p : Pool ι) : p.tryAdmit.2.waiting = p.waiting := by
  unfold tryAdmit
  split <;> rfl

end Pool
end PageDispatch
