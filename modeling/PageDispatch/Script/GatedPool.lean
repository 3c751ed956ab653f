import PageDispatch.Pool

/-!
This module contains a pool on its own whose jobs do nothing, but panic or wait for a gate if they
are told to.
-/

namespace PageDispatch
namespace Script

structure GatedJob where
  number : Nat
  panics : Bool
  gated : Bool
  deriving DecidableEq, Repr

structure GatedPool where
  pool : Pool GatedJob
  shut : List Nat
  opened : List Nat

namespace GatedPool

def new (config : PoolConfig) : GatedPool := ⟨.new config, [], []⟩

def submit (p : GatedPool) (number : Nat) (panics : Bool) : GatedPool :=
  { p with pool := p.pool.submit ⟨number, panics, false⟩ }

def block (p : GatedPool) (number : Nat) : GatedPool :=
  { p with pool := p.pool.submit ⟨number, false, true⟩, shut := p.shut ++ [number] }

def release (p : GatedPool) : GatedPool :=
  { p with shut := p.shut.drop 1, opened := p.opened ++ p.shut.take 1 }

def tryAdmit (p : GatedPool) : Bool × GatedPool :=
  let (admitted, pool) := p.pool.tryAdmit
  (admitted, { p with pool })

def fill (p : GatedPool) : GatedPool :=
  match p.pool.start? with
  | some (_, pool) => { p with pool }
  | none => p

def ready? (p : GatedPool) : Option GatedJob :=
  p.pool.running.filter fun job => !job.gated || p.opened.contains job.number

/-- Runs jobs until one waits for its gate; answers their numbers. -/
def settle (p : GatedPool) : GatedPool × List Nat :=
  go (p.pool.waiting.length + 1) p []
where
  go : Nat → GatedPool → List Nat → GatedPool × List Nat
    | 0, p, finished => (p.fill, finished)
    | fuel + 1, p, finished =>
      let p := p.fill
      match p.ready? with
      | some job => go fuel { p with pool := p.pool.finish job.panics } (finished ++ [job.number])
      | none => (p, finished)

end GatedPool
end Script
end PageDispatch
