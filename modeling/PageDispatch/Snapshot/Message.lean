import PageDispatch.Accumulator
import PageDispatch.Channel
import PageDispatch.Request

/-!
This module contains pictures of requests and responses, and of their parts, as JSON.
-/

namespace PageDispatch

namespace Utf8

def hex (bs : Bytes) : String :=
  String.ofList (bs.flatMap fun b => Json.twoDigits b.toNat)

def toJson (bs : Bytes) : Json :=
  match decode? bs with
  | some text => .str text
  | none => .object [("hex", .str (hex bs))]

end Utf8

namespace HeaderSet

def toJson (h : HeaderSet) : Json :=
  .arr (h.entries.map fun (name, value) => .arr [.str name.text, Utf8.toJson value.bytes])

end HeaderSet

namespace Body

def toJson : Body → Json
  | empty => .object [("kind", .str "empty")]
  | message bytes => .object [("kind", .str "message"), ("data", Utf8.toJson bytes)]
  | writer _ => .object [("kind", .str "writer")]

end Body

namespace BodyWriter.Drained

def toJson (d : Drained) : Json :=
  let chunks := Json.arr (d.chunks.map Utf8.toJson)
  match d.result with
  | .ok done => .object [("done", .bool done), ("chunks", chunks)]
  | .error e => .object [("error", .str "io"), ("message", .str e), ("chunks", chunks)]

end BodyWriter.Drained

namespace Duration

def toJson (d : Duration) : Json := .ofNat d.milliseconds

end Duration

namespace Status

def toJson (s : Status) : Json := .ofNat s.code

end Status

namespace Accumulator

def toJson (a : Accumulator) : Json :=
  .object [
    ("status", .ofOption Status.toJson a.status),
    ("headers", a.headers.toJson),
    ("body", a.body.toJson),
    ("chunked", .ofOption .bool a.chunked),
    ("delay_ms", .ofOption Duration.toJson a.delay),
    ("modified", .bool a.modified),
    ("answered", .bool a.isAnswered)]

end Accumulator

namespace Response

def drained (r : Response) : List (String × Json) :=
  match r.body with
  | .writer writer =>
    [("drained", (writer.drain (fun _ => true) (fun _ _ => .ok ())).toJson)]
  | _ => []

def toJson (r : Response) : Json :=
  .object ([
    ("status", r.status.toJson),
    ("reason", .str r.reason),
    ("headers", r.headers.toJson),
    ("chunked", .bool r.chunked),
    ("delay_ms", .ofOption Duration.toJson r.delay),
    ("close", .bool r.closes),
    ("head", .str r.head),
    ("body_text", .ofOption .str r.body.text?),
    ("body", r.body.toJson)] ++ r.drained)

end Response

namespace SentResponse

def toJson (r : SentResponse) : Json :=
  .object [
    ("status", r.status.toJson),
    ("headers", r.headers.toJson),
    ("body", Utf8.toJson r.body),
    ("text", .str (Utf8.decodeLossy r.body)),
    ("chunks", .arr (r.chunks.map Utf8.toJson)),
    ("chunked", .bool r.chunked),
    ("content_type", .ofOption .str (r.headers.getText? "content-type"))]

end SentResponse

namespace Request

def members (r : Request) : List (String × Json) :=
  let pairs (fields : List (String × String)) : Json :=
    .arr (fields.map fun (name, value) => Json.ofStrings [name, value])
  [
    ("request_id", .str (toString r.id)),
    ("method", .str r.method.name),
    ("path", .str r.path),
    ("query", pairs r.query),
    ("headers", pairs r.headers),
    ("headers_map", .object (r.headerMap.map fun (name, value) => (name, .str value))),
    ("body", .ofOption Utf8.toJson r.body),
    ("body_text", .ofOption .str r.bodyText?)]

end Request

end PageDispatch
