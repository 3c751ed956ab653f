import PageDispatch.Text.Quoted
import PageDispatch.Text.Utf8

/-!
This module contains response bodies: fixed octets, or a writer that is asked for one piece after
the other until it is done.
-/

namespace PageDispatch

inductive WriteStatus where
  | notDone
  | done
  | deferred
  deriving DecidableEq, Repr

/-- One call of a writer: the octets it appends, whether it closes the channel, and how it ends. -/
structure WriterCall where
  data : Bytes
  closes : Bool
  result : Except String WriteStatus
  deriving Repr

/-- A writer, as the calls it answers in order. After the last one it is done. -/
abbrev BodyWriter := List WriterCall

inductive Body where
  | empty
  | message (bytes : Bytes)
  | writer (calls : BodyWriter)
  deriving Repr

namespace Body

def isEmpty : Body → Bool
  | empty => true
  | _ => false

def ofString (s : String) : Body := message (Utf8.encode s)

def bytes? : Body → Option Bytes
  | message bytes => some bytes
  | _ => none

def text? (b : Body) : Option String :=
  b.bytes?.bind Utf8.decode?

def describe : Body → String
  | empty => "Empty"
  | message bytes =>
    match Utf8.decode? bytes with
    | some text => "Message(" ++ Quoted.quote text ++ ")"
    | none => "Message(" ++ toString bytes.length ++ " bytes)"
  | writer _ => "Writer(..)"

end Body

namespace BodyWriter

/--
How far a writer got: the pieces handed on, the number of calls made, and whether it was done, or
the error that stopped it.
-/
structure Drained where
  chunks : List Bytes
  calls : Nat
  result : Except String Bool

/--
Asks a writer for its pieces and hands those that are not empty on to `sink`, with their number.
Before every call the receiver has to be open; `isOpen` is given the number of calls made so far.
-/
def drain (isOpen : Nat → Bool) (sink : Nat → Bytes → Except String Unit) (writer : BodyWriter) :
    Drained :=
  go 0 [] writer
where
  /-- Here `chunks` holds the pieces handed on so far, last one first. -/
  go (calls : Nat) (chunks : List Bytes) (writer : BodyWriter) : Drained :=
    if isOpen calls then
      match writer with
      | [] => ⟨chunks.reverse, calls + 1, .ok true⟩
      | call :: rest =>
        match call.result with
        | .error e => ⟨chunks.reverse, calls + 1, .error e⟩
        | .ok status =>
          let taken := if call.data.isEmpty then .ok () else sink chunks.length call.data
          match taken with
          | .error e => ⟨chunks.reverse, calls + 1, .error e⟩
          | .ok () =>
            let chunks := if call.data.isEmpty then chunks else call.data :: chunks
            match status with
            | .done => ⟨chunks.reverse, calls + 1, .ok true⟩
            | _ => go (calls + 1) chunks rest
    else
      ⟨chunks.reverse, calls, .ok false⟩

def closings (writer : BodyWriter) (calls : Nat) : Nat :=
  (writer.take calls).countP (·.closes)

end BodyWriter

namespace Body

def closings (calls : Nat) : Body → Nat
  | writer w => w.closings calls
  | _ => 0

def detached : Body → Body
  | writer calls => writer (calls.map fun call => { call with closes := false })
  | other => other

end Body
end PageDispatch
