import PageDispatch.Context
import PageDispatch.Http.Status
import PageDispatch.Json.Basic

/-!
This module contains what units decide.
-/

namespace PageDispatch

/-- The body of an answer: a text as it is, or a value that has yet to be encoded. -/
inductive ResponseMessage where
  | text (s : String)
  | structured (value : Json)

inductive Outcome where
  | rejected
  /--
  The chain goes on, with more context for later units. From a locked outcome on no other page is
  tried.
  -/
  | consumed (objects : List ContextObject) (locked : Bool)
  | respondWith (status : Status) (message : Option ResponseMessage)

inductive OutcomeKind where
  | rejected
  | consumed
  | locked
  | respondWith
  | failure
  deriving DecidableEq, Repr

namespace OutcomeKind

def name : OutcomeKind → String
  | rejected => "rejected"
  | consumed => "consumed"
  | locked => "locked"
  | respondWith => "respond_with"
  | failure => "failure"

end OutcomeKind

namespace Outcome

def kind : Outcome → OutcomeKind
  | rejected => .rejected
  | consumed _ false => .consumed
  | consumed _ true => .locked
  | respondWith _ _ => .respondWith

def objects : Outcome → List ContextObject
  | consumed objects _ => objects
  | _ => []

def withObject (o : Outcome) (object : ContextObject) : Outcome :=
  match o with
  | consumed objects locked => consumed (objects ++ [object]) locked
  | other => other

def isLocked : Outcome → Bool
  | consumed _ locked => locked
  | _ => false

end Outcome
end PageDispatch
