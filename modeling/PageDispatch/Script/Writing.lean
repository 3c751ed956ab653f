import PageDispatch.Snapshot.Message

/-!
This module contains single operations on accumulators as values, so that they can be listed and
played back.
-/

namespace PageDispatch

inductive Writing where
  | status (code : Nat)
  | raw (name : String) (value : Bytes)
  | textHeader (name value : String)
  | repeatable (name value : String)
  | text (codec : HeaderCodec String) (value : String)
  | contentLength (n : UInt64)
  | retryAfter (d : Duration)
  | remove (name : String)
  | message (bytes : Bytes)
  | writer (calls : BodyWriter)
  | chunked (b : Bool)
  | delay (d : Duration)
  | readText (name : String)
  | readContentLength
  | readRetryAfter
  | headerText (name : String)
  | describeBody
  | bodyText

namespace Writing

def parseName (name : String) : Except CauseChain HeaderName :=
  (HeaderName.parse name).mapError Http.Malformed.toCauseChain

def perform (w : Writing) (a : Accumulator) : Except CauseChain (Json × Accumulator) := do
  let wrote (a : Accumulator) : Json × Accumulator := (.null, a)
  match w with
  | status code => return wrote (a.setStatus (← (Status.ofNat code).mapError (·.toCauseChain)))
  | raw name value =>
    let name ← parseName name
    let value ← (HeaderValue.ofBytes value).mapError (·.toCauseChain)
    return wrote (a.insertRaw name value)
  | textHeader name value => return wrote (← a.addHeader (← HeaderCodec.named name) value)
  | repeatable name value =>
    return wrote (← a.addHeader (.repeatable (← parseName name)) value)
  | text codec value => return wrote (← a.addHeader codec value)
  | contentLength n => return wrote (← a.addHeader .contentLength n)
  | retryAfter d => return wrote (← a.addHeader .retryAfter d)
  | remove name =>
    let (removed, a) := a.removeHeader (← parseName name)
    return (.ofNat removed, a)
  | message bytes => return wrote (a.setMessage bytes)
  | writer calls => return wrote (a.setWriter calls)
  | chunked b => return wrote (a.setChunked b)
  | delay d => return wrote (a.setDelay d)
  | readText name => return (.ofOption .str (← a.header (← HeaderCodec.named name)), a)
  | readContentLength =>
    return (.ofOption (fun n => .ofNat n.toNat) (← a.header .contentLength), a)
  | readRetryAfter =>
    return (.ofOption (fun d => .ofNat d.seconds.toNat) (← a.header .retryAfter), a)
  | headerText name => return (.ofOption .str (a.headers.getText? name), a)
  | describeBody => return (.str a.body.describe, a)
  | bodyText => return (.ofOption .str a.body.text?, a)

def performAll (ws : List Writing) : Except CauseChain Accumulator :=
  ws.foldlM (fun a w => (w.perform a).map (·.2)) .empty

end Writing
end PageDispatch
