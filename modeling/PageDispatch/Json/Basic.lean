import PageDispatch.Numeral.Binary64

/-!
This module contains the values of JSON documents: numbers are whole numbers within 64 bits or
double precision numbers, and the members of an object are kept in the order of their names.
-/

namespace PageDispatch

inductive Json where
  | null
  | bool (b : Bool)
  | int (n : Int)
  | float (x : Binary64)
  | str (s : String)
  | arr (items : List Json)
  | obj (members : List (String × Json))
  deriving Repr, Inhabited

namespace Json

/-- Puts a member in its place in the order of names, instead of one of the same name. -/
def insertMember (name : String) (value : Json) : List (String × Json) → List (String × Json)
  | [] => [(name, value)]
  | (other, old) :: rest =>
    if name = other then (name, value) :: rest
    else if name < other then (name, value) :: (other, old) :: rest
    else (other, old) :: insertMember name value rest

def object (members : List (String × Json)) : Json :=
  obj (members.foldl (fun acc (name, value) => insertMember name value acc) [])

def member? (name : String) : Json → Option Json
  | obj members => members.lookup name
  | _ => none

/-- A number that fits a 64-bit word, signed or not; others become double precision numbers. -/
def ofInt (n : Int) : Json :=
  if Int64.minValue.toInt ≤ n ∧ n < UInt64.size then int n else float (.ofFloat (Float.ofInt n))

def ofNat (n : Nat) : Json := ofInt n

def ofOption {α : Type} (f : α → Json) : Option α → Json
  | some a => f a
  | none => null

def ofStrings (texts : List String) : Json := arr (texts.map str)

def isNull : Json → Bool
  | null => true
  | _ => false

end Json
end PageDispatch
