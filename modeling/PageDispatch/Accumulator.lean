import PageDispatch.Http.HeaderCodec
import PageDispatch.Response

/-!
This module contains responses in the making: what units have written so far, and how the writings
of one unit are laid over those of the units before it.
-/

namespace PageDispatch

structure Accumulator where
  status : Option Status
  headers : HeaderSet
  body : Body
  chunked : Option Bool
  delay : Option Duration
  modified : Bool
  blank : modified = false →
    status = none ∧ headers = .empty ∧ body = .empty ∧ chunked = none ∧ delay = none
  deriving Repr

namespace Accumulator

def empty : Accumulator :=
  { status := none, headers := .empty, body := .empty, chunked := none, delay := none
    modified := false, blank := fun _ => ⟨rfl, rfl, rfl, rfl, rfl⟩ }

def setStatus (a : Accumulator) (status : Status) : Accumulator :=
  { a with status := some status, modified := true, blank := nofun }

/-- Writes a typed header. Multi-valued ones add up and become repeatable, others replace. -/
def addHeader {α : Type} (a : Accumulator) (codec : HeaderCodec α) (value : α) :
    Except CauseChain Accumulator :=
  (codec.write value).map fun rendered =>
    { a with
      headers :=
        if codec.multiValued then a.headers.appendRepeatable codec.name rendered
        else a.headers.set codec.name rendered
      modified := true
      blank := nofun }

def insertRaw (a : Accumulator) (name : HeaderName) (value : HeaderValue) : Accumulator :=
  { a with headers := a.headers.insert name value, modified := true, blank := nofun }

def header {α : Type} (a : Accumulator) (codec : HeaderCodec α) :
    Except CauseChain (Option α) :=
  match a.headers.get? codec.name with
  | none => .ok none
  | some value => (codec.read value).map some

def removeHeader (a : Accumulator) (name : HeaderName) : Nat × Accumulator :=
  let removed := a.headers.count name
  (removed,
    { a with
      headers := a.headers.erase name
      modified := a.modified || decide (0 < removed)
      blank := by
        intro h
        have ⟨hstatus, hheaders, hrest⟩ := a.blank (Bool.or_eq_false_iff.mp h).1
        exact ⟨hstatus, by rw [hheaders]; rfl, hrest⟩ })

def setMessage (a : Accumulator) (bytes : Bytes) : Accumulator :=
  { a with body := .message bytes, modified := true, blank := nofun }

def setWriter (a : Accumulator) (writer : BodyWriter) : Accumulator :=
  { a with body := .writer writer, modified := true, blank := nofun }

def setChunked (a : Accumulator) (chunked : Bool) : Accumulator :=
  { a with chunked := some chunked, modified := true, blank := nofun }

def setDelay (a : Accumulator) (delay : Duration) : Accumulator :=
  { a with delay := some delay, modified := true, blank := nofun }

def isAnswered (a : Accumulator) : Bool :=
  a.modified && a.status.isSome

/-- Lays another accumulator over this one, unless nothing was written to it. -/
def merge (a other : Accumulator) : Accumulator :=
  if other.modified then
    { status := other.status.or a.status
      headers := a.headers.merge other.headers
      body := if other.body.isEmpty then a.body else other.body
      chunked := other.chunked.or a.chunked
      delay := other.delay.or a.delay
      modified := true
      blank := nofun }
  else a

def closesConnection (a : Accumulator) : Bool :=
  match (a.headers.get? .connection).map HeaderValue.toText with
  | some (.ok text) => Lowercase.lowerAscii text == "close"
  | _ => false

def toResponse (a : Accumulator) : Response :=
  { status := a.status.getD .ok
    headers := a.headers
    body := a.body
    chunked := a.chunked.getD false
    delay := a.delay
    closes := a.closesConnection }

@[simp]
theorem merge_empty (a : Accumulator) : a.merge empty = a := rfl

theorem merge_of_not_modified {a other : Accumulator} (h : other.modified = false) :
    a.merge other = a := by
  simp [merge, h]

theorem contains_headers_merge (a other : Accumulator) (name : HeaderName) :
    (a.merge other).headers.contains name
      =
    (a.headers.contains name || other.headers.contains name) := by
  cases h : other.modified with
  | true =>
    unfold merge
    rw [if_pos h]
    exact HeaderSet.contains_merge _ _ _
  | false =>
    rw [merge_of_not_modified h, (other.blank h).2.1]
    exact (Bool.or_false _).symm

end Accumulator
end PageDispatch
