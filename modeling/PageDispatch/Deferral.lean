import PageDispatch.Accumulator
import PageDispatch.Outcome

/-!
This module contains outcomes that arrive later. A slot joins the one who resolves and the one who
waits; whoever comes second sets the continuation going.
-/

namespace PageDispatch

inductive DeferralError where
  | abandoned
  | failed (e : CauseChain)

namespace DeferralError

def kind : DeferralError → String
  | abandoned => "abandoned"
  | failed _ => "failed"

def message : DeferralError → String
  | abandoned => "deferred unit was dropped without an outcome"
  | failed e => "deferred unit failed: " ++ e.full

def source? : DeferralError → Option String
  | abandoned => none
  | failed e => some e.message

end DeferralError

structure Resolution where
  outcome : Outcome
  response : Option Accumulator

abbrev Resolved := Except DeferralError Resolution

/-- The ways in which a resumer says what came of its unit. -/
inductive Resumption where
  | resume
  | resumeWith (objects : List ContextObject)
  | resumeWithOutcome (outcome : Outcome)
  | resumeWithResponse (outcome : Outcome) (response : Accumulator)
  | fail (e : CauseChain)

namespace Resumption

/-- Unless an outcome is given, the chain goes on. -/
def resolved : Resumption → Resolved
  | resume => .ok ⟨.consumed [] false, none⟩
  | resumeWith objects => .ok ⟨.consumed objects false, none⟩
  | resumeWithOutcome outcome => .ok ⟨outcome, none⟩
  | resumeWithResponse outcome response => .ok ⟨outcome, some response⟩
  | fail e => .error (.failed e)

end Resumption

/-- Where a deferral stands; `κ` is what waits for the resolution. -/
inductive Slot (κ : Type) where
  | waiting
  | resolved (r : Resolved)
  | registered (continuation : κ)
  | done

namespace Slot

variable {κ : Type}

/-- Delivers a resolution. Only the first one counts. -/
def resolve (slot : Slot κ) (r : Resolved) : Slot κ × Option (κ × Resolved) :=
  match slot with
  | waiting => (resolved r, none)
  | resolved first => (resolved first, none)
  | registered continuation => (done, some (continuation, r))
  | done => (done, none)

/-- Registers what is to be done once resolved. Only the first registration counts. -/
def onResolve (slot : Slot κ) (continuation : κ) : Slot κ × Option (κ × Resolved) :=
  match slot with
  | waiting => (registered continuation, none)
  | resolved r => (done, some (continuation, r))
  | registered first => (registered first, none)
  | done => (done, none)

theorem resolve_resolve (slot : Slot κ) (first second : Resolved) :
    (slot.resolve first).1.resolve second = ((slot.resolve first).1, none) := by
  cases slot <;> rfl

theorem onResolve_onResolve (slot : Slot κ) (first second : κ) :
    (slot.onResolve first).1.onResolve second = ((slot.onResolve first).1, none) := by
  cases slot <;> rfl

def isResolved : Slot κ → Bool
  | resolved _ => true
  | _ => false

end Slot

/-- The two ends of a deferral, as far as they are still held. -/
structure DeferralEnds (κ : Type) where
  slot : Slot κ
  pending : Bool
  resumer : Bool

namespace DeferralEnds

variable {κ : Type}

def new : DeferralEnds κ := ⟨.waiting, true, true⟩

def none : DeferralEnds κ := ⟨.done, false, false⟩

def resolve (d : DeferralEnds κ) (r : Resolved) : DeferralEnds κ × Option (κ × Resolved) :=
  if d.resumer then
    let (slot, ran) := d.slot.resolve r
    ({ d with slot, resumer := false }, ran)
  else (d, .none)

def use (d : DeferralEnds κ) (resumption : Resumption) : DeferralEnds κ × Option (κ × Resolved) :=
  d.resolve resumption.resolved

def drop (d : DeferralEnds κ) : DeferralEnds κ × Option (κ × Resolved) :=
  d.resolve (.error .abandoned)

def onResolve (d : DeferralEnds κ) (continuation : κ) : DeferralEnds κ × Option (κ × Resolved) :=
  if d.pending then
    let (slot, ran) := d.slot.onResolve continuation
    ({ d with slot, pending := false }, ran)
  else (d, .none)

def dropPending (d : DeferralEnds κ) : DeferralEnds κ := { d with pending := false }

def pendingText (d : DeferralEnds κ) : String :=
  "PendingOutcome \x7b resolved: " ++ toString d.slot.isResolved ++ " \x7d"

/-- The text of a resumer. As long as it is held, nothing is resolved. -/
def resumerText : String := "Resumer \x7b pending: true \x7d"

end DeferralEnds
end PageDispatch
