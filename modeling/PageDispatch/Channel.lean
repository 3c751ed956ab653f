import PageDispatch.Response

/-!
This module contains channels: what takes finished responses, as long as it is open, and records
them.
-/

namespace PageDispatch

/-- A response as it was recorded; the chunks are those of a streamed body. -/
structure SentResponse where
  status : Status
  headers : HeaderSet
  body : Bytes
  chunks : List Bytes
  chunked : Bool

inductive SendError where
  | closed
  | closedWhileStreaming
  | writer (message : String)
  deriving DecidableEq, Repr

namespace SendError

def message : SendError → String
  | closed => "channel is closed"
  | closedWhileStreaming => "channel closed while streaming the body"
  | writer message => message

end SendError

structure Channel where
  isOpen : Bool
  sent : List SentResponse

namespace Channel

def new : Channel := ⟨true, []⟩

def close (c : Channel) : Channel := { c with isOpen := false }

def drain (c : Channel) (writer : BodyWriter) : BodyWriter.Drained :=
  BodyWriter.drain (fun calls => c.isOpen && writer.closings calls == 0) (fun _ _ => .ok ()) writer

def calls (c : Channel) (r : Response) : Nat :=
  match c.isOpen, r.body with
  | true, .writer writer => (c.drain writer).calls
  | _, _ => 0

def closings (c : Channel) (r : Response) : Nat :=
  r.body.closings (c.calls r)

def record (c : Channel) (r : Response) : Except SendError SentResponse :=
  if c.isOpen then
    match r.body with
    | .empty => .ok ⟨r.status, r.headers, [], [], r.chunked⟩
    | .message bytes => .ok ⟨r.status, r.headers, bytes, [], r.chunked⟩
    | .writer writer =>
      let drained := c.drain writer
      match drained.result with
      | .ok true => .ok ⟨r.status, r.headers, drained.chunks.flatten, drained.chunks, r.chunked⟩
      | .ok false => .error .closedWhileStreaming
      | .error message => .error (.writer message)
  else .error .closed

/--
Takes a response. A streamed body is drained first, and meanwhile only its writer closes the
channel: that someone else does, between the check on entry and the first question of the drain or
later, is not expressible here.
-/
def send (c : Channel) (r : Response) : Except SendError Unit × Channel :=
  let isOpen := c.isOpen && c.closings r == 0
  match c.record r with
  | .ok sent => (.ok (), ⟨isOpen, c.sent ++ [sent]⟩)
  | .error e => (.error e, ⟨isOpen, c.sent⟩)

end Channel
end PageDispatch
