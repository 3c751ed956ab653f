import PageDispatch.Chain.PathPattern
import PageDispatch.Chain.Unit

/-!
This module contains the stock units: matching the method or the path of the request, writing a
header and answering.
-/

namespace PageDispatch
namespace HandlerUnit

def methodMatch (methods : List Method) : HandlerUnit where
  name := .ok "MethodMatch"
  evaluate view :=
    .decide (if methods.contains view.context.request.method then .consumed [] false else .rejected)

def pathMatch (pattern : PathPattern) : HandlerUnit where
  name := .ok "PathMatch"
  evaluate view :=
    .decide
      (match pattern.matches? view.context.request.path with
      | some params => .consumed [.params params] false
      | none => .rejected)

def setHeader (name : HeaderName) (value : HeaderValue) : HandlerUnit where
  name := .ok "SetHeader"
  evaluate _ :=
    { actions := [], response := Accumulator.empty.insertRaw name value, edits := []
      ending := .decided (.consumed [] false) }

def setHeaderText (name value : String) : Except CauseChain HandlerUnit :=
  match HeaderName.parse name with
  | .error _ => .error (HeaderCodecError.badName name).toCauseChain
  | .ok parsed =>
    match HeaderValue.ofString value with
    | .error _ => .error (HeaderCodecError.badValue name).toCauseChain
    | .ok value => .ok (setHeader parsed value)

def respond (status : Status) (message : Option ResponseMessage) : HandlerUnit where
  name := .ok "Respond"
  evaluate _ := .decide (.respondWith status message)

end HandlerUnit
end PageDispatch
