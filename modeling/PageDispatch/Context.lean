import PageDispatch.CauseChain
import PageDispatch.Request
import PageDispatch.Text.Quoted

/-!
This module contains what the units of a chain are given: the request, and the objects that earlier
units of the chain contributed.
-/

namespace PageDispatch

structure PathParams where
  pairs : List (String × String)
  deriving DecidableEq, Repr

namespace PathParams

def get? (p : PathParams) (name : String) : Option String := p.pairs.lookup name

def size (p : PathParams) : Nat := p.pairs.length

end PathParams

inductive ObjectKind where
  | word
  | integer
  | flag
  | text
  | params
  | reservation
  deriving DecidableEq, Repr

namespace ObjectKind

def displayName : ObjectKind → String
  | word => "u32"
  | integer => "i64"
  | flag => "bool"
  | text => "alloc::string::String"
  | params => "chainrouter::unit::builtin::PathParams"
  | reservation => "chainrouter::echo::Reservation"

end ObjectKind

inductive ContextObject where
  | word (n : UInt32)
  | integer (n : Int)
  | flag (b : Bool)
  | text (s : String)
  | params (p : PathParams)
  | reservation (id : RequestId)
  deriving DecidableEq, Repr

namespace ContextObject

def kind : ContextObject → ObjectKind
  | word _ => .word
  | integer _ => .integer
  | flag _ => .flag
  | text _ => .text
  | params _ => .params
  | reservation _ => .reservation

def describe (o : ContextObject) : String :=
  "ContextObject(" ++ Quoted.quote o.kind.displayName ++ ")"

end ContextObject

structure Context where
  request : Request
  /-- Oldest contribution first. -/
  objects : List ContextObject
  deriving Repr

namespace Context

def forRequest (request : Request) : Context := ⟨request, []⟩

def extended (c : Context) (additions : List ContextObject) : Context :=
  { c with objects := c.objects ++ additions }

def get? (c : Context) (kind : ObjectKind) : Option ContextObject :=
  (c.objects.filter (·.kind = kind)).getLast?

def require (c : Context) (kind : ObjectKind) : Except CauseChain ContextObject :=
  match c.get? kind with
  | some o => .ok o
  | none => .error (.of ("no " ++ kind.displayName ++ " available in request context"))

@[simp]
theorem request_extended (c : Context) (additions : List ContextObject) :
    (c.extended additions).request = c.request := rfl

@[simp]
theorem objects_extended (c : Context) (additions : List ContextObject) :
    (c.extended additions).objects = c.objects ++ additions := rfl

@[simp]
theorem extended_extended (c : Context) (first second : List ContextObject) :
    (c.extended first).extended second = c.extended (first ++ second) := by
  simp [extended]

end Context
end PageDispatch
