import PageDispatch.Chain.Registry
import PageDispatch.Numeral.Natural

/-!
This module contains a handful of pages to try an engine with: one that describes the request, one
that only says it is well, one that locks its chain, one that answers late and one that streams.
-/

namespace PageDispatch
namespace Demo

def textObject (pairs : List (String × String)) : Json :=
  .object (pairs.map fun (name, value) => (name, .str value))

def description (context : Context) : Json :=
  let request := context.request
  let params :=
    match context.get? .params with
    | some (.params p) => p.pairs
    | _ => []
  .object [
    ("request_id", .str (toString request.id)),
    ("method", .str request.method.name),
    ("path", .str request.path),
    ("params", textObject params),
    ("query", textObject request.query),
    ("body", .ofOption .str request.bodyText?)]

def echo : HandlerUnit where
  name := .ok "Echo"
  evaluate view := .decide (.respondWith .ok (some (.structured (description view.context))))

def registry : Registry :=
  Registry.builtins.register "echo" (.custom fun _ _ => .pure (.ok echo))

def echoPage : Page := .ofSpecs "echo" [
  ⟨"method", .ofStrings ["GET", "HEAD"]⟩,
  ⟨"path", .str "/echo/\x7bid\x7d"⟩,
  .bare "echo"]

def healthPage : Page := .ofSpecs "health" [
  ⟨"method", .str "GET"⟩,
  ⟨"path", .str "/health"⟩,
  ⟨"set_header", textObject [("name", "cache-control"), ("value", "no-store")]⟩,
  ⟨"respond", .object [("status", .int 200), ("message", .str "ok")]⟩]

def routedPage (name : String) (method : Method) (path : String) (units : List HandlerUnit) :
    Page where
  name := name
  build _ :=
    .pure
      (match PathPattern.parse path with
      | .error e => .error e.toCauseChain
      | .ok pattern =>
        .ok ⟨name,
          ([HandlerUnit.methodMatch [method], HandlerUnit.pathMatch pattern] ++ units).map .unit⟩)

def post : Method := ⟨"POST", by decide⟩

def reserve : HandlerUnit where
  name := .ok "reserve"
  evaluate view := .decide (.consumed [.reservation view.context.request.id] true)

/-- Answers with what was reserved, but not to a request without a body. -/
def confirm : HandlerUnit where
  name := .ok "confirm"
  evaluate view :=
    match view.context.require .reservation with
    | .error e => ⟨[], .empty, [], .failed e⟩
    | .ok reserved =>
      if (view.context.request.body.getD []).isEmpty then .decide .rejected
      else
        let id :=
          match reserved with
          | .reservation id => toString id
          | _ => ""
        .decide (.respondWith ⟨201, by decide⟩
          (some (.structured (textObject [("reservation", id)]))))

def ordersPage : Page := routedPage "orders" post "/orders" [reserve, confirm]

def maxWait : Nat := 5000

def waitTime (request : Request) : Except CauseChain Nat :=
  match request.queryParam? "ms" with
  | none => .ok 10
  | some text =>
    match Natural.readWord text with
    | .ok ms => .ok (min ms.toNat maxWait)
    | .error e => .error ((CauseChain.of e.message).within "ms must be an integer")

def wait : HandlerUnit where
  name := .ok "wait"
  evaluate view :=
    match waitTime view.context.request with
    | .error e => ⟨[], .empty, [], .failed e⟩
    | .ok ms =>
      let message := ResponseMessage.structured (.object [("waited_ms", .ofNat ms)])
      let resolution : Resolution := ⟨.respondWith .ok (some message), none⟩
      ⟨[], .empty, [], .deferred ⟨some ms, false, .ok resolution⟩⟩

def slowPage : Page := routedPage "slow" .get "/slow" [wait]

def chunks (total : Nat) : BodyWriter :=
  (List.range total).map fun i =>
    { data := Utf8.encode ("chunk " ++ toString i ++ "\n"), closes := false
      result := .ok (if i + 1 = total then .done else .notDone) }

def chunkCount (context : Context) : Except CauseChain Nat := do
  let count :=
    match ← context.require .params with
    | .params p => (p.get? "n").getD ""
    | _ => ""
  match Natural.readChars 10 UInt32.size count.toList with
  | .ok total => return total
  | .error e => .error ((CauseChain.of e.message).within "n must be an integer")

def stream : HandlerUnit where
  name := .ok "stream"
  evaluate view :=
    match chunkCount view.context with
    | .error e => ⟨[], .empty, [], .failed e⟩
    | .ok total =>
      ⟨[], (Accumulator.empty.setChunked true).setWriter (chunks total), [],
        .decided (.respondWith .ok none)⟩

def streamPage : Page := routedPage "stream" .get "/stream/\x7bn\x7d" [stream]

def pages : List Page := [echoPage, healthPage, ordersPage, slowPage, streamPage]

end Demo
end PageDispatch
