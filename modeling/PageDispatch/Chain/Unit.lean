import PageDispatch.Chain.Spec
import PageDispatch.Deferral

/-!
This module contains units and what is made of them: chains, the pages that build chains, and the
decorators that add to chains. A unit is evaluated at most once. What it does is a value that
depends on what it sees: the writings, the edits of the chain and the decision are in that value,
and so are the things it does to the world, in order.
-/

namespace PageDispatch

/-- What a piece of foreign code panicked with: a text, or something that is none. -/
inductive PanicPayload where
  | text (s : String)
  | other
  deriving DecidableEq, Repr

namespace PanicPayload

def message : PanicPayload → String
  | text s => s
  | other => "non-string panic payload"

end PanicPayload

inductive Signal where
  | note (value : Json)
  | close

structure Call (α : Type) where
  signals : List Signal
  result : Except PanicPayload α

namespace Call

variable {α : Type}

def pure (a : α) : Call α := ⟨[], .ok a⟩

def panic (payload : PanicPayload) : Call α := ⟨[], .error payload⟩

end Call

abbrev Attempt (α : Type) := Call (Except CauseChain α)

structure UnitView where
  context : Context
  /-- What the units before it wrote. -/
  response : Accumulator
  /-- The elements still to come, described; describing a unit may panic. -/
  pending : List (Except PanicPayload String)

structure DeferralPlan where
  /-- Milliseconds from now, or none for a resolution before the evaluation ends. -/
  after : Option Nat
  /-- Whether the channel of the request is closed just before. -/
  closes : Bool
  resolved : Resolved

inductive UnitEnding where
  | decided (outcome : Outcome)
  | deferred (plan : DeferralPlan)
  | failed (e : CauseChain)
  | panicked (payload : PanicPayload)

structure ChainView where
  name : String
  elements : List (Except PanicPayload String)

mutual

/-- One handling step. Even its name may panic. -/
structure HandlerUnit where
  name : Except PanicPayload String
  evaluate : UnitView → UnitWork

structure UnitWork where
  actions : List UnitAction
  response : Accumulator
  edits : List RemnantEdit
  ending : UnitEnding

inductive UnitAction where
  | signal (s : Signal)
  | registerPage (page : Page)
  | addDecorator (decorator : Decorator)
  | dispatch (request : Request)

inductive RemnantEdit where
  | insertNext (element : ChainElement)
  | append (element : ChainElement)

inductive ChainElement where
  | unit (u : HandlerUnit)
  | spec (s : UnitSpec)

structure HandlerChain where
  name : String
  elements : List ChainElement

structure Page where
  name : String
  build : Context → Call (Except CauseChain HandlerChain)

structure Decorator where
  decorate : ChainView → Context → Call (Except CauseChain (List ChainEdit))

inductive ChainEdit where
  | prepend (element : ChainElement)
  | push (element : ChainElement)

end

namespace ChainElement

def describe : ChainElement → Except PanicPayload String
  | unit u => u.name
  | spec s => .ok ("spec:" ++ s.describe)

end ChainElement

namespace HandlerChain

def empty (name : String) : HandlerChain := ⟨name, []⟩

def push (c : HandlerChain) (element : ChainElement) : HandlerChain :=
  { c with elements := c.elements ++ [element] }

def prepend (c : HandlerChain) (element : ChainElement) : HandlerChain :=
  { c with elements := element :: c.elements }

def size (c : HandlerChain) : Nat := c.elements.length

def describe (c : HandlerChain) : List (Except PanicPayload String) :=
  c.elements.map ChainElement.describe

def view (c : HandlerChain) : ChainView := ⟨c.name, c.describe⟩

def edit (c : HandlerChain) : ChainEdit → HandlerChain
  | .prepend element => c.prepend element
  | .push element => c.push element

def ofSpecs (name : String) (specs : List UnitSpec) : HandlerChain :=
  ⟨name, specs.map .spec⟩

@[simp]
theorem size_push (c : HandlerChain) (element : ChainElement) :
    (c.push element).size = c.size + 1 := by
  simp [push, size]

@[simp]
theorem size_prepend (c : HandlerChain) (element : ChainElement) :
    (c.prepend element).size = c.size + 1 := rfl

end HandlerChain

namespace Page

def ofSpecs (name : String) (specs : List UnitSpec) : Page where
  name := name
  build _ := .pure (.ok (.ofSpecs name specs))

end Page

namespace UnitWork

def decide (outcome : Outcome) : UnitWork := ⟨[], .empty, [], .decided outcome⟩

end UnitWork

instance : Inhabited HandlerUnit := ⟨⟨.ok "", fun _ => .decide .rejected⟩⟩

instance : Inhabited Page := ⟨.ofSpecs "" []⟩

instance : Inhabited Decorator := ⟨⟨fun _ _ => .pure (.ok [])⟩⟩

end PageDispatch
