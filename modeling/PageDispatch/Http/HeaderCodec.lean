import PageDispatch.Duration
import PageDispatch.Http.HeaderName
import PageDispatch.Http.HeaderValue
import PageDispatch.Numeral.Natural
import PageDispatch.Text.Blank
import PageDispatch.Text.Quoted

/-!
This module contains typed headers: how values of a type are written as header values and read back.
-/

namespace PageDispatch

inductive HeaderCodecError where
  | badName (text : String)
  | badValue (name : String)
  | badRepeatable
  | notVisible (name : HeaderName)
  | unreadable
  | notNumber (e : NumeralError)
  | notSeconds (e : NumeralError)
  deriving DecidableEq, Repr

namespace HeaderCodecError

def toCauseChain : HeaderCodecError → CauseChain
  | badName text =>
    Http.Malformed.headerName.toCauseChain.within ("invalid header name " ++ Quoted.quote text)
  | badValue name =>
    Http.Malformed.headerValue.toCauseChain.within ("invalid value for header " ++ name)
  | badRepeatable => Http.Malformed.headerValue.toCauseChain.within "invalid repeatable value"
  | notVisible name =>
    Http.Malformed.headerText.toCauseChain.within
      ("header " ++ name.text ++ " is not visible ASCII")
  | unreadable => Http.Malformed.headerText.toCauseChain
  | notNumber e => .of e.message
  | notSeconds e => (CauseChain.of e.message).within "Retry-After is not delay-seconds"

end HeaderCodecError

/-- A header whose values are of type `α`. -/
structure HeaderCodec (α : Type) where
  name : HeaderName
  /-- Whether values add up instead of replacing one another. -/
  multiValued : Bool
  write : α → Except CauseChain HeaderValue
  read : HeaderValue → Except CauseChain α

namespace HeaderCodec

def writeText (fault : HeaderCodecError) (s : String) : Except CauseChain HeaderValue :=
  match HeaderValue.ofString s with
  | .ok value => .ok value
  | .error _ => .error fault.toCauseChain

def readText (fault : HeaderCodecError) (v : HeaderValue) : Except CauseChain String :=
  match v.toText with
  | .ok s => .ok s
  | .error _ => .error fault.toCauseChain

def text (name : HeaderName) : HeaderCodec String where
  name := name
  multiValued := name.isMultiValued
  write := writeText (.badValue name.text)
  read := readText (.notVisible name)

def named (name : String) : Except CauseChain (HeaderCodec String) :=
  match HeaderName.parse name with
  | .ok name => .ok (text name)
  | .error _ => .error (HeaderCodecError.badName name).toCauseChain

def repeatable (name : HeaderName) : HeaderCodec String where
  name := name
  multiValued := true
  write := writeText .badRepeatable
  read := readText .unreadable

def readNumber (fault : NumeralError → HeaderCodecError) (v : HeaderValue) :
    Except CauseChain UInt64 :=
  match v.toText with
  | .error _ => .error HeaderCodecError.unreadable.toCauseChain
  | .ok s =>
    match Natural.readWord (Blank.trim s) with
    | .ok n => .ok n
    | .error e => .error (fault e).toCauseChain

def contentLength : HeaderCodec UInt64 where
  name := .contentLength
  multiValued := false
  write n := .ok (.ofNat n.toNat)
  read := readNumber .notNumber

def retryAfter : HeaderCodec Duration where
  name := .retryAfter
  multiValued := false
  write d := .ok (.ofNat d.seconds.toNat)
  read v := (readNumber .notSeconds v).map Duration.ofSeconds

def contentType : HeaderCodec String := text .contentType
def location : HeaderCodec String := text .location
def cacheControl : HeaderCodec String := text .cacheControl
def connection : HeaderCodec String := text .connection
def setCookie : HeaderCodec String := text .setCookie

end HeaderCodec
end PageDispatch
