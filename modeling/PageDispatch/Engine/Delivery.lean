import PageDispatch.Engine.Machine

/-!
This module contains the way of a response to its channel, at once or after its delay.
-/

namespace PageDispatch

namespace Machine

/--
Hands a response to a channel. A writer that closes a channel closes the outer one, which need not
be the one that the response goes to.
-/
def transmit (m : Machine) (id outer : ChannelId) (wire : Wire) (r : Response) : Machine :=
  match wire.refusal with
  | some message => m.log (.sendFailed id message)
  | none =>
    let own := if id = outer then r else { r with body := r.body.detached }
    let closings := r.body.closings (wire.channel.calls own)
    let (result, channel) := wire.channel.send own
    let m := m.setChannel id channel
    let m := closings.repeat (fun m => m.close outer) m
    match result with
    | .ok () => m
    | .error e => m.log (.sendFailed id e.message)

/--
Sends the response of a dispatch unless its channel is closed, and closes the channel if the response
says so.
-/
def sendNow (m : Machine) (dispatch : Nat) (id outer : ChannelId) (r : Response) : Machine :=
  match m.wires[id]? with
  | none => m.log (.withheld dispatch id r)
  | some wire =>
    if wire.channel.isOpen then
      let m := (m.log (.sending dispatch id r)).transmit id outer wire r
      if r.closes then m.close id else m
    else m.log (.withheld dispatch id r)

def deliver (m : Machine) (d : Dispatch) (r : Response) : Machine :=
  match r.delay.filter (0 < ·.milliseconds) with
  | none => m.sendNow d.id d.channel d.outer r
  | some delay => m.schedule delay.milliseconds (.deliver d.id d.channel d.outer r)

def guarded (m : Machine) (outer : ChannelId) (c : Call Response) : Machine × Response :=
  match m.call outer c with
  | (m, .ok r) => (m, r)
  | (m, .error _) => (m, .minimalError)

end Machine
end PageDispatch
