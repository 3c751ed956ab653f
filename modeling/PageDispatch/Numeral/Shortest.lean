import PageDispatch.Numeral.Binary64

/-!
This module contains the shortest decimal of a double precision number: of the decimals that read
back as the number one with the fewest digits, and of those the nearest.
-/

namespace PageDispatch

structure Decimal where
  digits : Nat
  exponent : Int
  deriving DecidableEq, Repr

namespace Decimal

/-- Moves trailing zeros from the digits into the exponent, at most `fuel` of them. -/
def stripZeros : Nat → Decimal → Decimal
  | 0, d => d
  | fuel + 1, d =>
    if d.digits % 10 = 0 && d.digits != 0 then
      stripZeros fuel ⟨d.digits / 10, d.exponent + 1⟩
    else d

end Decimal

namespace Shortest

/--
The reals that round to a finite number, in units of a quarter of its last place: the number is
`4 * m` units, and both ends belong to the interval if `m` is even.
-/
structure Interval where
  low : Nat
  middle : Nat
  high : Nat
  closed : Bool
  scale : Int

def Interval.of (x : Binary64) : Interval :=
  let m := x.significand
  { low := 4 * m - (if x.isBinadeStart then 1 else 2)
    middle := 4 * m
    high := 4 * m + 2
    closed := m % 2 == 0
    scale := x.scale - 2 }

def raise (base : Nat) (n : Nat) (e : Int) : Nat := n * base.pow e.toNat

/--
The point of the grid `10 ^ j` that reads back, if there is one: of the two neighbours of the middle
those inside the interval, and of two the nearer.
-/
def onGrid (i : Interval) (j : Int) : Option Nat :=
  let point n := raise 2 (raise 10 n j) (-i.scale)
  let units u := raise 10 (raise 2 u i.scale) (-j)
  let inside n :=
    if i.closed then units i.low ≤ point n && point n ≤ units i.high
    else units i.low < point n && point n < units i.high
  let below := units i.middle / point 1
  let above := below + 1
  match inside below, inside above with
  | false, false => none
  | true, false => some below
  | false, true => some above
  | true, true =>
    let toBelow := units i.middle - point below
    let toAbove := point above - units i.middle
    if toBelow < toAbove || (toBelow == toAbove && below % 2 == 0) then some below else some above

/-- Tries finer and finer grids, starting with `10 ^ j`. -/
def search (i : Interval) : Nat → Int → Decimal
  | 0, j => ⟨0, j⟩
  | fuel + 1, j =>
    match onGrid i j with
    | some n => ⟨n, j⟩
    | none => search i fuel (j - 1)

def decimal (x : Binary64) : Decimal :=
  let magnitude := (x.significand.log2 : Int) + x.scale
  (search (Interval.of x) 25 (magnitude * 1233 / 4096 + 2)).stripZeros 25

end Shortest
end PageDispatch
