import PageDispatch.Chain.Unit

/-!
This module contains the failures that the engine answers for: their kinds and texts, and the
reports that are made of them.
-/

namespace PageDispatch

inductive UnitFailure where
  | error (e : CauseChain)
  | panic (message : String)
  | noOutcome
  | instantiation (e : CauseChain)
  | lockedRejection
  | lockedExhaustion
  | pageBuild (e : CauseChain)
  deriving DecidableEq, Repr

namespace UnitFailure

def kind : UnitFailure → String
  | error _ => "error"
  | panic _ => "panic"
  | noOutcome => "no_outcome"
  | instantiation _ => "instantiation"
  | lockedRejection => "locked_rejection"
  | lockedExhaustion => "locked_exhaustion"
  | pageBuild _ => "page_build"

def message : UnitFailure → String
  | error e => "unit failed: " ++ e.full
  | panic message => "unit panicked: " ++ message
  | noOutcome => "unit produced no outcome"
  | instantiation e => "unit instantiation failed: " ++ e.full
  | lockedRejection => "unit rejected a chain locked by an earlier unit"
  | lockedExhaustion => "locked chain ended without a response"
  | pageBuild e => "page could not be built: " ++ e.full

def source? : UnitFailure → Option CauseChain
  | error e | instantiation e | pageBuild e => some e
  | _ => none

/-- What a client is told instead of the failure. -/
def sanitized : String := "Internal Server Error"

def render (f : UnitFailure) (expose : Bool) : String :=
  if expose then f.message else sanitized

end UnitFailure

/-- A failure that could not be reported, because the hook panicked. -/
structure FatalFailure where
  failure : UnitFailure
  hookPanic : String
  deriving DecidableEq, Repr

namespace FatalFailure

def message (f : FatalFailure) : String :=
  "error hook panicked (" ++ f.hookPanic ++ ") while reporting: " ++ f.failure.message

end FatalFailure

structure FailureReport where
  requestId : RequestId
  page : String
  unit : String
  /-- How many units were evaluated before; none if the failure belongs to no unit. -/
  position : Option Nat
  failure : UnitFailure
  deriving DecidableEq, Repr

structure OutcomeRecord where
  page : String
  unit : String
  position : Option Nat
  kind : OutcomeKind
  status : Option Status
  deriving DecidableEq, Repr

end PageDispatch
