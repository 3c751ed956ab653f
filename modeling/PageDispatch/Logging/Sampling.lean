import PageDispatch.Logging.Config

/-!
This module contains the sampling of log events: severe ones are always kept, and of the others
every so many.
-/

namespace PageDispatch

inductive LogLevel where
  | trace
  | debug
  | info
  | warn
  | error
  deriving DecidableEq, Repr

inductive LogRecord where
  | span
  | event (level : LogLevel)
  deriving DecidableEq, Repr

namespace LogRecord

def ofName : String → LogRecord
  | "trace" => event .trace
  | "debug" => event .debug
  | "info" => event .info
  | "warn" => event .warn
  | "error" => event .error
  | _ => span

def isSevere : LogRecord → Bool
  | event .warn | event .error => true
  | _ => false

end LogRecord

structure Sampler where
  mode : SamplingMode
  interval : UInt64
  counter : UInt64
  deriving DecidableEq, Repr

namespace Sampler

/-- The distance between kept events for a share of them; none are kept at a distance of zero. -/
def intervalOf (rate : Float) : UInt64 :=
  let rate := if rate < 0 then 0 else if 1 < rate then 1 else rate
  if rate <= 0 then 0
  else
    let distance := (1 / rate).round
    if distance.isNaN then 0 else distance.toUInt64

def new (mode : SamplingMode) (rate : Float) : Sampler := ⟨mode, intervalOf rate, 0⟩

def keep (s : Sampler) (r : LogRecord) : Bool × Sampler :=
  match r with
  | .span => (true, s)
  | r =>
    match s.mode with
    | .all => (true, s)
    | .errorOnly => (r.isSevere, s)
    | .sampled =>
      if r.isSevere then (true, s)
      else
        (decide (0 < s.interval) && s.counter % s.interval == 0,
          { s with counter := s.counter + 1 })

def keepAll (s : Sampler) : List LogRecord → List Bool
  | [] => []
  | r :: rest => (s.keep r).1 :: (s.keep r).2.keepAll rest

end Sampler
end PageDispatch
