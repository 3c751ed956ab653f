import PageDispatch.Numeral.Binary64
import PageDispatch.Text.Lowercase

/-!
This module contains the reading of double precision numbers: a sign if any, then a decimal with or
without a fraction and a power of ten, or the words for infinity and for no number.
-/

namespace PageDispatch
namespace FloatReader

def spanDigits (cs : List Char) : List Char × List Char :=
  cs.span Char.isDigit

def digitsValue (digits : List Char) : Nat :=
  digits.foldl (fun acc c => acc * 10 + (c.toNat - '0'.toNat)) 0

/--
The double nearest to `significand * 10 ^ exponent`. Beyond 330 places on either side the answer is
infinity or zero.
-/
def nearest (significand : Nat) (exponent : Int) : Float :=
  let places := (Nat.toDigits 10 significand).length + exponent
  if significand = 0 || places < -330 then 0
  else if 330 < places then 1 / 0
  else Float.ofScientific significand (exponent < 0) exponent.natAbs

def readExponent? : List Char → Option Int
  | [] => some 0
  | e :: rest =>
    if e = 'e' ∨ e = 'E' then
      let (negative, digits) :=
        match rest with
        | '-' :: digits => (true, digits)
        | '+' :: digits => (false, digits)
        | digits => (false, digits)
      if digits.isEmpty || !digits.all Char.isDigit then none
      else
        let value : Int := digitsValue digits
        some (if negative then -value else value)
    else none

/-- A decimal without sign: a digit on at least one side of the point. -/
def readDecimal? (cs : List Char) : Option Float :=
  let (whole, rest) := spanDigits cs
  let (fraction, rest) :=
    match rest with
    | '.' :: rest => spanDigits rest
    | rest => ([], rest)
  if whole.isEmpty && fraction.isEmpty then none
  else
    (readExponent? rest).map fun exponent =>
      nearest (digitsValue (whole ++ fraction)) (exponent - fraction.length)

/-- A magnitude: a decimal or one of the words, in either letter case. -/
def readMagnitude? (cs : List Char) : Option Float :=
  match Lowercase.lowerAscii (String.ofList cs) with
  | "inf" | "infinity" => some (1 / 0)
  | "nan" => some (0 / 0)
  | _ => readDecimal? cs

def read? (s : String) : Option Float :=
  match s.toList with
  | '-' :: cs => (readMagnitude? cs).map fun x => -x
  | '+' :: cs => readMagnitude? cs
  | cs => readMagnitude? cs

end FloatReader
end PageDispatch
