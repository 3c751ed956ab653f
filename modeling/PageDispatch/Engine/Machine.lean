import PageDispatch.Channel
import PageDispatch.Chain.Remnant
import PageDispatch.Engine.Collaborators
import PageDispatch.Engine.Metrics

/-!
This module contains the state of an engine at work: its pages, the runs of chains that wait for
their turn or for a resolution, the channels, and a journal of what happened.
-/

namespace PageDispatch

abbrev ChannelId := Nat

/-- A channel as the engine reaches it. Some lines refuse every response. -/
structure Wire where
  channel : Channel
  refusal : Option String

structure Dispatch where
  id : Nat
  nested : Bool
  context : Context
  channel : ChannelId
  outer : ChannelId
  pages : List Page
  tried : Nat
  current : Option String
  started : Nat

structure DispatchSummary where
  requestId : RequestId
  disposition : Disposition
  status : Option Status
  page : Option String
  pagesTried : Nat
  latency : Nat
  deriving DecidableEq, Repr

structure Answer where
  response : Response
  record : OutcomeRecord
  /-- Set if the failure behind the answer could not be reported. -/
  fatal : Option FatalFailure

inductive ChainResult where
  | answered (answer : Answer)
  /-- The chain does not apply; there is no rejecting unit if it ran out of units. -/
  | rejected (evaluated : Nat) (rejecter : Option String)
  | abandoned (evaluated : Nat)

inductive Owner where
  | caller
  | dispatch (d : Dispatch)

structure Run where
  page : String
  context : Context
  channel : ChannelId
  outer : ChannelId
  remnant : Remnant
  response : Accumulator
  locked : Bool
  evaluated : Nat
  owner : Owner

structure Suspension where
  run : Run
  unit : String
  position : Nat
  /-- What the unit wrote before it deferred. -/
  own : Accumulator

inductive Job where
  | step (run : Run)
  | resume (s : Suspension) (r : Resolved)

namespace Job

def run : Job → Run
  | step run => run
  | resume s _ => s.run

def evaluated : Job → Nat
  | step run => run.evaluated + 1
  | resume s _ => s.run.evaluated

end Job

inductive Alarm where
  | resolve (slot : Slot Suspension) (closes : Bool) (outer : ChannelId) (r : Resolved)
  | deliver (dispatch : Nat) (channel outer : ChannelId) (response : Response)

structure Timer where
  due : Nat
  alarm : Alarm

inductive Event where
  | note (value : Json)
  | received (dispatch : Nat) (channel : ChannelId) (request : Request)
  | sending (dispatch : Nat) (channel : ChannelId) (response : Response)
  /-- A response was due, but its channel was closed. -/
  | withheld (dispatch : Nat) (channel : ChannelId) (response : Response)
  | sendFailed (channel : ChannelId) (message : String)
  | closed (channel : ChannelId)
  | building (dispatch : Nat) (page : String)
  | rejected (dispatch : Nat) (tried : Nat)
  | instantiating (dispatch : Option Nat) (spec : UnitSpec)
  | evaluating (dispatch : Option Nat) (position : Nat) (unit : String) (view : UnitView)
  | reporting (dispatch : Option Nat) (report : FailureReport)
  | escaped (dispatch : Option Nat)
  | completed (result : ChainResult)
  | finished (dispatch : Nat) (nested : Bool) (summary : DispatchSummary)

structure Machine where
  settings : Settings
  pages : List Page
  decorators : List Decorator
  patterns : PatternCache
  pool : Pool Job
  wires : List Wire
  timers : List Timer
  /-- The time in milliseconds. -/
  clock : Nat
  metrics : DispatchMetrics
  dispatches : Nat
  /-- Oldest event first. -/
  journal : List Event

namespace Owner

def id? : Owner → Option Nat
  | caller => none
  | dispatch d => some d.id

end Owner

namespace Run

def ofChain (chain : HandlerChain) (context : Context) (channel outer : ChannelId) (owner : Owner) :
    Run where
  page := chain.name
  context := context
  channel := channel
  outer := outer
  remnant := .ofList chain.elements
  response := .empty
  locked := false
  evaluated := 0
  owner := owner

end Run

namespace Machine

def new (settings : Settings) (pages : List Page) (decorators : List Decorator) : Machine where
  settings := settings
  pages := pages
  decorators := decorators
  patterns := []
  pool := .new settings.pool
  wires := []
  timers := []
  clock := 0
  metrics := .zero
  dispatches := 0
  journal := []

def log (m : Machine) (e : Event) : Machine :=
  { m with journal := m.journal ++ [e] }

def connect (m : Machine) (wire : Wire) : ChannelId × Machine :=
  (m.wires.length, { m with wires := m.wires ++ [wire] })

def isOpen (m : Machine) (channel : ChannelId) : Bool :=
  match m.wires[channel]? with
  | some wire => wire.channel.isOpen
  | none => false

def setChannel (m : Machine) (id : ChannelId) (channel : Channel) : Machine :=
  { m with wires := m.wires.modify id fun wire => { wire with channel } }

def shut (m : Machine) (id : ChannelId) : Machine :=
  { m with wires := m.wires.modify id fun wire => { wire with channel := wire.channel.close } }

/-- Closes a channel. Closing it once more changes nothing, but is an event again. -/
def close (m : Machine) (id : ChannelId) : Machine :=
  (m.shut id).log (.closed id)

def signal (m : Machine) (outer : ChannelId) : Signal → Machine
  | .note value => m.log (.note value)
  | .close => m.close outer

def call {α : Type} (m : Machine) (outer : ChannelId) (c : Call α) :
    Machine × Except PanicPayload α :=
  (c.signals.foldl (fun m s => m.signal outer s) m, c.result)

def submit (m : Machine) (job : Job) : Machine :=
  { m with pool := m.pool.submit job }

def schedule (m : Machine) (after : Nat) (alarm : Alarm) : Machine :=
  { m with timers := m.timers ++ [⟨m.clock + after, alarm⟩] }

def registerPage (m : Machine) (page : Page) : Machine :=
  { m with pages := m.pages ++ [page] }

def addDecorator (m : Machine) (decorator : Decorator) : Machine :=
  { m with decorators := m.decorators ++ [decorator] }

@[simp]
theorem isOpen_log (m : Machine) (e : Event) (channel : ChannelId) :
    (m.log e).isOpen channel = m.isOpen channel := rfl

@[simp]
theorem isOpen_submit (m : Machine) (job : Job) (channel : ChannelId) :
    (m.submit job).isOpen channel = m.isOpen channel := rfl

@[simp]
theorem journal_log (m : Machine) (e : Event) : (m.log e).journal = m.journal ++ [e] := rfl

end Machine
end PageDispatch
