import PageDispatch.Json.Basic
import PageDispatch.Numeral.FloatText
import PageDispatch.Text.Quoted

/-!
This module contains the reading of JSON values as records: an object with the fields by name, or an
array with the fields in order. Errors name what was found and what was expected.
-/

namespace PageDispatch

inductive ShapeError where
  | invalidType (found : Json) (expected : String)
  | invalidValue (found : Json) (expected : String)
  | missingField (name : String)
  | tooFew (length : Nat) (record : String) (fields : Nat)
  | tooMany (length : Nat)

namespace Json

def shape : Json → String
  | null => "null"
  | bool b => "boolean \x60" ++ (if b then "true" else "false") ++ "\x60"
  | int n => "integer \x60" ++ toString n ++ "\x60"
  | float x => "floating point \x60" ++ FloatText.document x ++ "\x60"
  | str s => "string " ++ Quoted.quote s
  | arr _ => "sequence"
  | obj _ => "map"

end Json

namespace ShapeError

def message : ShapeError → String
  | invalidType found expected => "invalid type: " ++ found.shape ++ ", expected " ++ expected
  | invalidValue found expected => "invalid value: " ++ found.shape ++ ", expected " ++ expected
  | missingField name => "missing field \x60" ++ name ++ "\x60"
  | tooFew length record fields =>
    "invalid length " ++ toString length ++ ", expected struct " ++ record ++ " with "
      ++ toString fields ++ " elements"
  | tooMany length =>
    "invalid length " ++ toString length ++ ", expected fewer elements in array"

end ShapeError

namespace Json

def readString : Json → Except ShapeError String
  | str s => .ok s
  | other => .error (.invalidType other "a string")

def readSmallWord : Json → Except ShapeError Nat
  | int n => if 0 ≤ n ∧ n < 65536 then .ok n.toNat else .error (.invalidValue (int n) "u16")
  | other => .error (.invalidType other "u16")

/--
The two fields of a record. Fields are read in the order of their names, and only then missed in the
order of the record; `optional` says whether the second one may be missing.
-/
def readPair {α β : Type} (record first second : String) (readFirst : Json → Except ShapeError α)
    (readSecond : Json → Except ShapeError β) (optional : Option β) (value : Json) :
    Except ShapeError (α × β) :=
  match value with
  | obj members =>
    let found {γ : Type} (name : String) (read : Json → Except ShapeError γ) :
        Except ShapeError (Option γ) :=
      match members.lookup name with
      | some value => (read value).map some
      | none => .ok none
    let needFirst (a : Option α) : Except ShapeError α :=
      match a with
      | some a => .ok a
      | none => .error (.missingField first)
    let needSecond (b : Option β) : Except ShapeError β :=
      match b.or optional with
      | some b => .ok b
      | none => .error (.missingField second)
    if first < second then do
      let a ← found first readFirst
      let b ← found second readSecond
      return (← needFirst a, ← needSecond b)
    else do
      let b ← found second readSecond
      let a ← found first readFirst
      return (← needFirst a, ← needSecond b)
  | arr [] => .error (.tooFew 0 record 2)
  | arr [a] => do
    let a ← readFirst a
    match optional with
    | some b => return (a, b)
    | none => .error (.tooFew 1 record 2)
  | arr (a :: b :: rest) => do
    let a ← readFirst a
    let b ← readSecond b
    if rest.isEmpty then return (a, b) else .error (.tooMany (rest.length + 2))
  | other => .error (.invalidType other ("struct " ++ record))

end Json
end PageDispatch
