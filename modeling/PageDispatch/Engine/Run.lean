import PageDispatch.Engine.Delivery

/-!
This module contains how a run takes the decision of a unit: what the unit wrote is laid over what
the units before it wrote, and the run goes on, ends, or ends in an answer for a failure.
-/

namespace PageDispatch

inductive Progress where
  | continues (run : Run)
  | suspended (s : Suspension) (plan : DeferralPlan)
  | ended (result : ChainResult)
  | escaped

namespace Accumulator

def writeFailure (own : Accumulator) (body : String) : Accumulator :=
  ((own.setStatus .internalServerError).insertRaw .contentType Response.plainText).setMessage
    (Utf8.encode body)

end Accumulator

namespace Run

def record (run : Run) (unit : String) (position : Option Nat) (kind : OutcomeKind) :
    OutcomeRecord :=
  ⟨run.page, unit, position, kind, run.response.status⟩

def answer (run : Run) (own : Accumulator) (unit : String) (position : Option Nat)
    (kind : OutcomeKind) (fatal : Option FatalFailure) : Answer :=
  let run := { run with response := run.response.merge own }
  ⟨run.response.toResponse, run.record unit position kind, fatal⟩

def consume (run : Run) (own : Accumulator) (objects : List ContextObject) (locked : Bool) : Run :=
  { run with
    response := run.response.merge own
    context := run.context.extended objects
    locked := run.locked || locked }

def report (run : Run) (unit : String) (position : Option Nat) (failure : UnitFailure) :
    FailureReport :=
  ⟨run.context.request.id, run.page, unit, position, failure⟩

def failureAnswer (run : Run) (unit : String) (position : Option Nat) (failure : UnitFailure)
    (own : Accumulator) (exposeDetails : Bool) (told : Except PanicPayload Unit) : Answer :=
  let fatal :=
    match told with
    | .ok () => none
    | .error payload => some ⟨failure, payload.message⟩
  run.answer (own.writeFailure (failure.render exposeDetails)) unit position .failure fatal

def hasContentType (run : Run) (own : Accumulator) : Bool :=
  own.headers.contains .contentType || run.response.headers.contains .contentType

/-- Writes an encoded message, and its type unless one is known already. -/
def attachEncoded (run : Run) (own : Accumulator) (e : EncodedMessage) : Accumulator :=
  let own := if run.hasContentType own then own else own.insertRaw .contentType e.contentType
  own.setMessage e.bytes

end Run

namespace Machine

/-- Tells the hook about a failure and answers for it, unless the channel is closed. -/
def fail (m : Machine) (run : Run) (unit : String) (position : Option Nat) (failure : UnitFailure)
    (own : Accumulator) : Machine × Option Answer :=
  if m.isOpen run.channel then
    let report := run.report unit position failure
    let (called, told) :=
      (m.log (.reporting run.owner.id? report)).call run.outer (m.settings.hook report)
    (called, some (run.failureAnswer unit position failure own m.settings.exposeDetails told))
  else (m, none)

def failRun (m : Machine) (run : Run) (unit : String) (position : Option Nat)
    (failure : UnitFailure) (own : Accumulator) : Machine × Progress :=
  match m.fail run unit position failure own with
  | (m, some answer) => (m, .ended (.answered answer))
  | (m, none) => (m, .ended (.abandoned run.evaluated))

def respond (m : Machine) (run : Run) (unit : String) (position : Nat) (status : Status)
    (message : Option ResponseMessage) (own : Accumulator) : Machine × Progress :=
  let own := own.setStatus status
  let answered (own : Accumulator) : Progress :=
    .ended (.answered (run.answer own unit (some position) .respondWith none))
  match message with
  | none => (m, answered own)
  | some (.text s) => (m, answered (own.setMessage (Utf8.encode s)))
  | some (.structured value) =>
    match m.call run.outer (m.settings.codec value) with
    | (m, .ok (.ok encoded)) => (m, answered (run.attachEncoded own encoded))
    | (m, .ok (.error e)) => m.failRun run unit (some position) (.error e) own
    | (m, .error _) => (m, .escaped)

/-- Takes the decision of a unit, unless the channel is closed. -/
def apply (m : Machine) (run : Run) (unit : String) (position : Nat) (outcome : Outcome)
    (own : Accumulator) : Machine × Progress :=
  if m.isOpen run.channel then
    match outcome with
    | .rejected =>
      if run.locked then m.failRun run unit (some position) .lockedRejection own
      else (m, .ended (.rejected run.evaluated (some unit)))
    | .consumed objects locked => (m, .continues (run.consume own objects locked))
    | .respondWith status message => m.respond run unit position status message own
  else (m, .ended (.abandoned run.evaluated))

def exhausted (m : Machine) (run : Run) : Machine × Progress :=
  if run.locked then m.failRun run "<end of chain>" none .lockedExhaustion .empty
  else (m, .ended (.rejected run.evaluated none))

def resume (m : Machine) (s : Suspension) (r : Resolved) : Machine × Progress :=
  match r with
  | .ok resolution =>
    let own :=
      match resolution.response with
      | some more => s.own.merge more
      | none => s.own
    m.apply s.run s.unit s.position resolution.outcome own
  | .error .abandoned => m.failRun s.run s.unit (some s.position) .noOutcome s.own
  | .error (.failed e) => m.failRun s.run s.unit (some s.position) (.error e) s.own

end Machine
end PageDispatch
