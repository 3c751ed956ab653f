/-!
This module contains the reading of natural numbers from digits in a base, below a bound.
-/

namespace PageDispatch

inductive NumeralError where
  | empty
  | invalidDigit
  | tooLarge
  deriving DecidableEq, Repr

namespace NumeralError

def message : NumeralError → String
  | empty => "cannot parse integer from empty string"
  | invalidDigit => "invalid digit found in string"
  | tooLarge => "number too large to fit in target type"

end NumeralError

namespace Natural

def wordBound : Nat := UInt64.size

def digitValue? (base : Nat) (c : Char) : Option Nat :=
  let value :=
    if '0' ≤ c ∧ c ≤ '9' then some (c.toNat - '0'.toNat)
    else if 'a' ≤ c ∧ c ≤ 'z' then some (c.toNat - 'a'.toNat + 10)
    else if 'A' ≤ c ∧ c ≤ 'Z' then some (c.toNat - 'A'.toNat + 10)
    else none
  value.filter (· < base)

/-- Reads digits from the left on top of `acc`; the leftmost fault decides the error. -/
def readDigits (base bound : Nat) (acc : Nat) : List Char → Except NumeralError Nat
  | [] => .ok acc
  | c :: rest =>
    match digitValue? base c with
    | none => .error .invalidDigit
    | some d =>
      if acc * base + d < bound then readDigits base bound (acc * base + d) rest
      else .error .tooLarge

/-- Reads a number below `bound`: one plus sign if any, then one digit or more. -/
def readChars (base bound : Nat) : List Char → Except NumeralError Nat
  | [] => .error .empty
  | ['+'] => .error .invalidDigit
  | '+' :: digits => readDigits base bound 0 digits
  | digits => readDigits base bound 0 digits

def readWordIn (base : Nat) (cs : List Char) : Except NumeralError UInt64 :=
  (readChars base wordBound cs).map Nat.toUInt64

def readWord (s : String) : Except NumeralError UInt64 :=
  readWordIn 10 s.toList

end Natural
end PageDispatch
