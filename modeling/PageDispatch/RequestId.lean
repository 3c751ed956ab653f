import PageDispatch.Text.Blank
import PageDispatch.Text.Lowercase

/-!
This module contains request identifiers: numbers of 128 bits, written as 26 digits in base 32. The
top 48 bits count the milliseconds since 1970.
-/

namespace PageDispatch

structure RequestId where
  value : BitVec 128
  deriving DecidableEq, Repr

namespace RequestId

def zero : RequestId := ⟨0⟩

/-- The digits in the order of their values: no I, L, O and U. -/
def alphabet : List Char := "0123456789ABCDEFGHJKMNPQRSTVWXYZ".toList

def digitValue? (c : Char) : Option Nat :=
  alphabet.idxOf? c.toUpper

def length : Nat := 26

inductive DecodeError where
  | invalidLength
  | invalidCharacter
  deriving DecidableEq, Repr

def DecodeError.message : DecodeError → String
  | invalidLength => "invalid length"
  | invalidCharacter => "invalid character"

/-- The number that digits spell; bits beyond the lowest 128 are lost. -/
def ofDigits (digits : List Nat) : RequestId :=
  ⟨digits.foldl (fun acc d => (acc <<< 5) ||| BitVec.ofNat 128 d) 0⟩

def parse (s : String) : Except DecodeError RequestId :=
  if s.utf8ByteSize = length then
    match s.toList.mapM digitValue? with
    | some digits => .ok (ofDigits digits)
    | none => .error .invalidCharacter
  else .error .invalidLength

def toString (id : RequestId) : String :=
  String.ofList ((List.range length).reverse.map fun i =>
    alphabet.getD ((id.value.toNat >>> (5 * i)) % 32) '0')

instance : ToString RequestId := ⟨toString⟩

/-- The milliseconds since 1970 in an identifier. -/
def timestamp (id : RequestId) : Nat := (id.value >>> 80).toNat

def headerName : String := "x-request-id"

def ofHeader? (value : String) : Option RequestId :=
  (parse (Blank.trim value)).toOption

def ofHeaderOr (fresh : RequestId) (header : Option String) : RequestId :=
  (header.bind ofHeader?).getD fresh

end RequestId
end PageDispatch
