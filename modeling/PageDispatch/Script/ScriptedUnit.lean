import PageDispatch.Chain.Unit
import PageDispatch.Script.Writing
import PageDispatch.Snapshot.Outcome

/-!
This module contains units that do what a list of actions says. They journal what they see, which
makes the work of an engine visible.
-/

namespace PageDispatch
namespace Script

inductive Sight where
  | remnant
  | remnantSize
  | chain
  | own
  | objects
  deriving DecidableEq, Repr

namespace Sight

def name : Sight → String
  | remnant => "remnant"
  | remnantSize => "remnant_len"
  | chain => "chain"
  | own => "own"
  | objects => "objects"

end Sight

/-- One action of a scripted unit. Elements that could not be made fail when their turn comes. -/
inductive Action where
  | write (verb : String) (w : Writing)
  | look (sight : Sight)
  | get (name : String)
  | require (name : String)
  | insertNext (element : Except CauseChain ChainElement)
  | append (element : Except CauseChain ChainElement)
  | panic (payload : PanicPayload)
  | act (action : UnitAction)

/-- How a scripted unit ends, unless one of its actions fails. -/
inductive Ending where
  | decide (outcome : Except CauseChain Outcome)
  | fail (e : CauseChain)
  | defer (plan : Except CauseChain DeferralPlan)

structure State where
  actions : List UnitAction
  own : Accumulator
  edits : List RemnantEdit
  pending : List (Except PanicPayload String)
  cursor : Nat

namespace State

def start (view : UnitView) : State := ⟨[], .empty, [], view.pending, 0⟩

def act (s : State) (action : UnitAction) : State :=
  { s with actions := s.actions ++ [action] }

def note (s : State) (entry : List Json) : State :=
  s.act (.signal (.note (.arr entry)))

def insertNext (s : State) (element : ChainElement) : State :=
  { s with
    edits := s.edits ++ [.insertNext element]
    pending := s.pending.take s.cursor ++ element.describe :: s.pending.drop s.cursor
    cursor := s.cursor + 1 }

def append (s : State) (element : ChainElement) : State :=
  { s with
    edits := s.edits ++ [.append element]
    pending := s.pending ++ [element.describe] }

def work (s : State) (ending : UnitEnding) : UnitWork := ⟨s.actions, s.own, s.edits, ending⟩

end State

def look (view : UnitView) (s : State) (sight : Sight) : Except UnitEnding State :=
  let seen (value : Json) : State := s.note [.str "note", .str sight.name, value]
  match sight with
  | .remnant =>
    match s.pending.mapM id with
    | .ok names => .ok (seen (.ofStrings names))
    | .error payload => .error (.panicked payload)
  | .remnantSize => .ok (seen (.arr [.ofNat s.pending.length, .bool s.pending.isEmpty]))
  | .chain => .ok (seen view.response.toJson)
  | .own => .ok (seen s.own.toJson)
  | .objects => .ok (seen (.arr (view.context.objects.map ContextObject.toJson)))

def perform (view : UnitView) (s : State) (a : Action) : Except UnitEnding State :=
  match a with
  | .write verb w =>
    match w.perform s.own with
    | .error e => .error (.failed e)
    | .ok (result, own) =>
      let s := { s with own }
      .ok (if result.isNull then s else s.note [.str "result", .str verb, result])
  | .look sight => look view s sight
  | .get name =>
    let object := (ObjectKind.ofName? name).bind view.context.get?
    .ok (s.note [.str "get", .str name, .ofOption ContextObject.content object])
  | .require name =>
    match (ObjectKind.ofName? name).map view.context.require with
    | some (.error e) => .error (.failed e)
    | _ => .ok s
  | .insertNext (.ok element) => .ok (s.insertNext element)
  | .append (.ok element) => .ok (s.append element)
  | .insertNext (.error e) | .append (.error e) => .error (.failed e)
  | .panic payload => .error (.panicked payload)
  | .act action => .ok (s.act action)

def performAll (view : UnitView) : List Action → State → State × Option UnitEnding
  | [], s => (s, none)
  | a :: rest, s =>
    match perform view s a with
    | .ok s => performAll view rest s
    | .error ending => (s, some ending)

namespace Ending

def toUnitEnding : Ending → UnitEnding
  | decide (.ok outcome) => .decided outcome
  | decide (.error e) => .failed e
  | fail e => .failed e
  | defer (.ok plan) => .deferred plan
  | defer (.error e) => .failed e

end Ending

def unit (name : String) (actions : List Action) (ending : Ending) : HandlerUnit where
  name := .ok name
  evaluate view :=
    let start := (State.start view).note [.str "eval", .str name]
    let (s, stopped) := performAll view actions start
    s.work (stopped.getD ending.toUnitEnding)

def nameless : HandlerUnit where
  name := .error (.text "no name")
  evaluate _ := .decide (.consumed [] false)

end Script
end PageDispatch
