import PageDispatch.Numeral.Shortest

/-!
This module contains the texts of double precision numbers: the plain text, always positional, and
the text in documents, which turns to powers of ten for the very large and the very small.
-/

namespace PageDispatch
namespace FloatText

/--
Digits with a point after the first `point` of them, filled up with zeros; nothing is written for a
fraction of zero.
-/
def positional (digits : List Char) (point : Int) : List Char :=
  if point ≤ 0 then
    ['0', '.'] ++ List.replicate (-point).toNat '0' ++ digits
  else
    let whole := point.toNat
    if digits.length ≤ whole then digits ++ List.replicate (whole - digits.length) '0'
    else digits.take whole ++ ['.'] ++ digits.drop whole

def scientific (digits : List Char) (exponent : Int) : List Char :=
  let fraction := if digits.length ≤ 1 then [] else '.' :: digits.drop 1
  let sign := if exponent < 0 then '-' else '+'
  digits.take 1 ++ fraction ++ ['e', sign] ++ Nat.toDigits 10 exponent.natAbs

def signed (x : Binary64) (text : List Char) : String :=
  String.ofList (if x.isNegative then '-' :: text else text)

/-- The positional text: whole numbers have no point, and there are no powers of ten. -/
def plain (x : Binary64) : String :=
  if x.isNaN then "NaN"
  else if x.isInfinite then signed x ['i', 'n', 'f']
  else if x.isZero then signed x ['0']
  else
    let d := Shortest.decimal x
    let digits := Nat.toDigits 10 d.digits
    signed x (positional digits (digits.length + d.exponent))

/--
The text in documents: positional from 1e-5 to below 1e16, whole numbers with a fraction of zero,
and a power of ten outside these limits.
-/
def document (x : Binary64) : String :=
  if x.isZero then signed x ['0', '.', '0']
  else
    let d := Shortest.decimal x
    let digits := Nat.toDigits 10 d.digits
    let point := digits.length + d.exponent
    if -5 < point && point ≤ 16 then
      let tail := if 0 ≤ d.exponent then ['.', '0'] else []
      signed x (positional digits point ++ tail)
    else
      signed x (scientific digits (point - 1))

end FloatText
end PageDispatch
