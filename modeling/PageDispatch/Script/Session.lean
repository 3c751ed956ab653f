import PageDispatch.Engine.Journal

/-!
This module contains sessions: requests to one machine, one after the other. A request is handled
before the next one; only delayed responses may arrive later.
-/

namespace PageDispatch
namespace Script

structure Manner where
  /-- Whether the request goes over the channel of the request before. -/
  sameChannel : Bool
  /-- Why a channel of its own refuses every response, if it does. -/
  refusal : Option String
  closed : Bool
  waits : Bool
  closesAfter : Bool
  deriving DecidableEq, Repr

structure Exchange where
  summary : Option DispatchSummary
  sent : List SentResponse
  isOpen : Bool

structure Session where
  machine : Machine
  channel : Option ChannelId

namespace Session

/-- The channel for a request: that of the request before, or a fresh one. -/
def connect (s : Session) (manner : Manner) : ChannelId × Machine :=
  match manner.sameChannel, s.channel with
  | true, some channel => (channel, s.machine)
  | _, _ => s.machine.connect ⟨.new, manner.refusal⟩

def holds (manner : Manner) (channel : ChannelId) (timer : Timer) : Bool :=
  match timer.alarm with
  | .resolve _ _ _ _ => true
  | .deliver _ _ outer _ => manner.waits && outer == channel

def request (s : Session) (r : Request) (manner : Manner) : Session × Exchange :=
  let (channel, m) := s.connect manner
  let m := if manner.closed then m.shut channel else m
  let before := (m.sent channel).length
  let id := m.dispatches
  let m := m.dispatch r channel channel false
  let m := m.settleWhile (holds manner channel) Machine.patience
  let m := if manner.closesAfter then m.close channel else m
  (⟨m, some channel⟩, ⟨m.summary? id, (m.sent channel).drop before, m.isOpen channel⟩)

end Session
end Script
end PageDispatch
