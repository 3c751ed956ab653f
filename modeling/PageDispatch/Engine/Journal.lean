import PageDispatch.Engine.Schedule

/-!
This module contains what the journal and the channels of a machine tell about its past.
-/

namespace PageDispatch
namespace Machine

def summary? (m : Machine) (dispatch : Nat) : Option DispatchSummary :=
  m.journal.findSome? fun
    | .finished id _ summary => if id = dispatch then some summary else none
    | _ => none

def result? (m : Machine) : Option ChainResult :=
  m.journal.findSome? fun
    | .completed result => some result
    | _ => none

def sent (m : Machine) (channel : ChannelId) : List SentResponse :=
  match m.wires[channel]? with
  | some wire => wire.channel.sent
  | none => []

end Machine
end PageDispatch
