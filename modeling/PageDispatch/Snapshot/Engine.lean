import PageDispatch.Engine.Machine
import PageDispatch.Snapshot.Outcome

/-!
This module contains pictures of what an engine reports, and of what happened in it, as JSON.
-/

namespace PageDispatch

namespace FailureReport

def toJson (r : FailureReport) : Json :=
  .object [
    ("request_id", .str (toString r.requestId)),
    ("page", .str r.page),
    ("unit", .str r.unit),
    ("position", .ofOption .ofNat r.position),
    ("kind", .str r.failure.kind),
    ("failure", .str r.failure.message)]

end FailureReport

namespace OutcomeRecord

def toJson (r : OutcomeRecord) : Json :=
  .object [
    ("page", .str r.page),
    ("unit", .str r.unit),
    ("position", .ofOption .ofNat r.position),
    ("kind", .str r.kind.name),
    ("status", .ofOption Status.toJson r.status)]

end OutcomeRecord

namespace FatalFailure

def toJson (f : FatalFailure) : Json :=
  .object [
    ("kind", .str f.failure.kind),
    ("failure", .str f.failure.message),
    ("hook_panic", .str f.hookPanic),
    ("display", .str f.message)]

end FatalFailure

namespace ChainResult

def toJson : ChainResult → Json
  | answered a =>
    .object [
      ("answered", a.response.toJson),
      ("status", a.response.status.toJson),
      ("record", a.record.toJson),
      ("fatal", .ofOption FatalFailure.toJson a.fatal)]
  | rejected evaluated rejecter =>
    .object [
      ("rejected", .object [("evaluated", .ofNat evaluated), ("by", .ofOption .str rejecter)]),
      ("status", .null)]
  | abandoned evaluated =>
    .object [("abandoned", .object [("evaluated", .ofNat evaluated)]), ("status", .null)]

end ChainResult

namespace DispatchSummary

def members (s : DispatchSummary) : List (String × Json) := [
  ("request_id", .str (toString s.requestId)),
  ("disposition", .str s.disposition.name),
  ("status", .ofOption Status.toJson s.status),
  ("page", .ofOption .str s.page),
  ("pages_tried", .ofNat s.pagesTried)]

def toJson (s : DispatchSummary) : Json :=
  .obj (s.members ++ [("latency_ms", .ofNat s.latency)])

end DispatchSummary

namespace PoolMetrics

def toJson (m : PoolMetrics) : Json :=
  .object [
    ("dispatched", .ofNat m.dispatched.toNat),
    ("completed", .ofNat m.completed.toNat),
    ("panicked", .ofNat m.panicked.toNat),
    ("shed", .ofNat m.shed.toNat),
    ("depth", .ofNat m.depth.toNat)]

end PoolMetrics

namespace Machine

def poolCounts (m : Machine) : Json :=
  .object [
    ("jobs", .ofNat m.pool.metrics.dispatched.toNat),
    ("panics", .ofNat m.pool.metrics.panicked.toNat),
    ("shed", .ofNat m.pool.metrics.shed.toNat)]

end Machine

namespace Event

def traced? : Event → Option Json
  | note value => some value
  | sending _ _ r => some (.arr [.str "send", r.status.toJson])
  | sendFailed _ e => some (Json.ofStrings ["send_failed", e])
  | closed _ => some (Json.ofStrings ["close"])
  | finished _ true s => some (.arr [.str "nested", .object s.members])
  | _ => none

def trace (events : List Event) : Json := .arr (events.filterMap traced?)

end Event

namespace HandlerChain

def picture (c : HandlerChain) : String :=
  "HandlerChain \x7b name: " ++ Quoted.quote c.name ++ ", elements: ["
    ++ ", ".intercalate (c.describe.filterMap Except.toOption) ++ "] \x7d"

end HandlerChain

end PageDispatch
