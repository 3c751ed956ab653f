import PageDispatch.Deferral
import PageDispatch.Snapshot.Message

/-!
This module contains pictures of outcomes, now or later, and of context objects as JSON.
-/

namespace PageDispatch

namespace ObjectKind

def name : ObjectKind → String
  | word => "u32"
  | integer => "i64"
  | flag => "bool"
  | text => "string"
  | params => "params"
  | reservation => "reservation"

def ofName? : String → Option ObjectKind
  | "u32" => some word
  | "i64" => some integer
  | "bool" => some flag
  | "string" => some text
  | "params" => some params
  | _ => none

end ObjectKind

namespace PathParams

def toJson (p : PathParams) : Json :=
  .arr (p.pairs.map fun (name, value) => Json.ofStrings [name, value])

end PathParams

namespace ContextObject

def content : ContextObject → Json
  | word n => .ofNat n.toNat
  | integer n => .ofInt n
  | flag b => .bool b
  | text s => .str s
  | params p => p.toJson
  | reservation id => .str (toString id)

def toJson (o : ContextObject) : Json := .object [(o.kind.name, o.content)]

end ContextObject

namespace ResponseMessage

def toJson : ResponseMessage → Json
  | text s => .str s
  | structured value => .object [("json", value)]

end ResponseMessage

namespace Outcome

def toJson (o : Outcome) : Json :=
  let answer :=
    match o with
    | respondWith status message =>
      [("status", status.toJson), ("message", .ofOption ResponseMessage.toJson message)]
    | _ => []
  .object ([
    ("kind", .str o.kind.name),
    ("kind_text", .str o.kind.name),
    ("context", .arr (o.objects.map ContextObject.toJson))] ++ answer)

end Outcome

namespace Resolution

def toJson (r : Resolution) : Json :=
  .object [
    ("outcome", r.outcome.toJson),
    ("response", .ofOption Accumulator.toJson r.response)]

end Resolution

namespace DeferralError

def toJson (e : DeferralError) : Json :=
  .object [
    ("error", .str e.kind),
    ("message", .str e.message),
    ("source", .ofOption .str e.source?)]

end DeferralError

namespace Resolved

def toJson : Resolved → Json
  | .ok r => r.toJson
  | .error e => e.toJson

end Resolved

end PageDispatch
