import PageDispatch.Body
import PageDispatch.Duration
import PageDispatch.Http.HeaderSet
import PageDispatch.Http.Status
import PageDispatch.Json.Printer

/-!
This module contains finished responses and the head in which they go over the wire.
-/

namespace PageDispatch

structure Response where
  status : Status
  headers : HeaderSet
  body : Body
  chunked : Bool
  delay : Option Duration
  closes : Bool
  deriving Repr

namespace Response

def new (status : Status) : Response :=
  { status, headers := .empty, body := .empty, chunked := false, delay := none, closes := false }

def withHeader (r : Response) (name : HeaderName) (value : HeaderValue) : Response :=
  { r with headers := r.headers.insert name value }

def plainText : HeaderValue := ⟨Utf8.encode "text/plain; charset=utf-8", by decide +kernel⟩

def bareText : HeaderValue := ⟨Utf8.encode "text/plain", by decide +kernel⟩

def jsonType : HeaderValue := ⟨Utf8.encode "application/json", by decide +kernel⟩

def close : HeaderValue := ⟨Utf8.encode "close", by decide +kernel⟩

def text (status : Status) (body : String) : Response :=
  { (new status).withHeader .contentType plainText with body := .ofString body }

def json (status : Status) (value : Json) : Response :=
  { (new status).withHeader .contentType jsonType with body := .ofString value.compact }

/-- The last resort: a fixed error that closes the connection. -/
def minimalError : Response :=
  { ((new .internalServerError).withHeader .contentType bareText).withHeader .connection close with
    body := .ofString "Internal Server Error"
    closes := true }

def closing (r : Response) : Response :=
  { r with headers := r.headers.set .connection close, closes := true }

def reason (r : Response) : String :=
  r.status.phrase?.getD "Unknown"

def headerLine (name : HeaderName) (value : HeaderValue) : String :=
  name.text ++ ": " ++ Utf8.decodeLossy value.bytes

def headLines (r : Response) : List String :=
  ["HTTP/1.1 " ++ toString r.status.code ++ " " ++ r.reason]
    ++ r.headers.entries.map (fun (name, value) => headerLine name value)
    ++ (if r.chunked then ["transfer-encoding: chunked"] else [])

def head (r : Response) : String :=
  String.join (r.headLines.map (· ++ "\r\n")) ++ "\r\n"

end Response
end PageDispatch
