import PageDispatch.Json.Basic

/-!
This module contains the reader of JSON documents. Whole numbers that fit a 64-bit word are kept
exactly. Any other number is its leading digits that fit a word, as a double, times or divided by a
power of ten.
-/

namespace PageDispatch
namespace Json

def skipBlanks (cs : List Char) : List Char :=
  cs.dropWhile fun c => c == ' ' || c == '\n' || c == '\r' || c == '\t'

def readUnit? : List Char → Option (Nat × List Char)
  | a :: b :: c :: d :: rest => do
    let step (acc : Nat) (c : Char) : Option Nat :=
      if '0' ≤ c ∧ c ≤ '9' then some (acc * 16 + (c.toNat - '0'.toNat))
      else if 'a' ≤ c ∧ c ≤ 'f' then some (acc * 16 + (c.toNat - 'a'.toNat + 10))
      else if 'A' ≤ c ∧ c ≤ 'F' then some (acc * 16 + (c.toNat - 'A'.toNat + 10))
      else none
    let unit ← [a, b, c, d].foldlM step 0
    return (unit, rest)
  | _ => none

def simpleEscape? : Char → Option Char
  | '"' => some '"'
  | '\\' => some '\\'
  | '/' => some '/'
  | 'b' => some '\x08'
  | 'f' => some '\x0c'
  | 'n' => some '\n'
  | 'r' => some '\r'
  | 't' => some '\t'
  | _ => none

/-- The character of an escape with a code; a surrogate needs the other half right behind it. -/
def readCode? (cs : List Char) : Option (Char × List Char) := do
  let (unit, rest) ← readUnit? cs
  if 0xDC00 ≤ unit ∧ unit ≤ 0xDFFF then none
  else if 0xD800 ≤ unit ∧ unit ≤ 0xDBFF then
    match rest with
    | '\\' :: 'u' :: rest =>
      let (low, rest) ← readUnit? rest
      if 0xDC00 ≤ low ∧ low ≤ 0xDFFF then
        return (Char.ofNat (0x10000 + (unit - 0xD800) * 0x400 + (low - 0xDC00)), rest)
      else none
    | _ => none
  else return (Char.ofNat unit, rest)

/-- Reads a string up to its closing quote; `done` holds the characters so far, last one first. -/
def readString? : Nat → List Char → List Char → Option (String × List Char)
  | 0, _, _ => none
  | fuel + 1, done, cs =>
    match cs with
    | [] => none
    | '"' :: rest => some (String.ofList done.reverse, rest)
    | '\\' :: 'u' :: rest => do
      let (c, rest) ← readCode? rest
      readString? fuel (c :: done) rest
    | '\\' :: c :: rest => do
      let c ← simpleEscape? c
      readString? fuel (c :: done) rest
    | c :: rest => if c.toNat < 0x20 then none else readString? fuel (c :: done) rest

def digit (c : Char) : Nat := c.toNat - '0'.toNat

/-- Takes digits as long as the number fits a 64-bit word; answers how many it took and the rest. -/
def takeDigits (acc count : Nat) : List Char → Nat × Nat × List Char
  | c :: rest =>
    if c.isDigit ∧ acc * 10 + digit c < UInt64.size then
      takeDigits (acc * 10 + digit c) (count + 1) rest
    else (acc, count, c :: rest)
  | [] => (acc, count, [])

/-- `significand * 10 ^ exponent`, with one rounding for each of at most `fuel` powers of ten. -/
def scaled : Nat → Float → Int → Option Float
  | 0, _, _ => none
  | fuel + 1, x, exponent =>
    if exponent.natAbs ≤ 308 then
      let power := Float.ofScientific 1 false exponent.natAbs
      if 0 ≤ exponent then
        let y := x * power
        if y.isInf then none else some y
      else some (x / power)
    else if x == 0 then some x
    else if 0 ≤ exponent then none
    else scaled fuel (x / Float.ofScientific 1 false 308) (exponent + 308)

def floatOf (negative : Bool) (significand : Nat) (exponent : Int) : Option Json :=
  (scaled 1000 (Float.ofNat significand) (max exponent (-300000))).map fun x =>
    float (.ofFloat (if negative then -x else x))

def readPower? (cs : List Char) : Option (Option Int × List Char) :=
  match cs with
  | e :: rest =>
    if e = 'e' ∨ e = 'E' then
      let (negative, rest) :=
        match rest with
        | '-' :: rest => (true, rest)
        | '+' :: rest => (false, rest)
        | rest => (false, rest)
      let (digits, rest) := rest.span Char.isDigit
      if digits.isEmpty then none
      else
        let value : Int := digits.foldl (fun acc c => acc * 10 + digit c) 0
        some (some (if negative then -value else value), rest)
    else some (none, cs)
  | [] => some (none, [])

def readNumber? (negative : Bool) (cs : List Char) : Option (Json × List Char) := do
  match cs with
  | '0' :: c :: _ => if c.isDigit then none
  | c :: _ => if !c.isDigit then none
  | [] => none
  let (significand, _, rest) := takeDigits 0 0 cs
  let (dropped, rest) := rest.span Char.isDigit
  let (significand, shift, isFraction, rest) ←
    match rest with
    | '.' :: rest =>
      let (significand, taken, rest) := takeDigits significand 0 rest
      let (ignored, rest) := rest.span Char.isDigit
      if taken = 0 ∧ ignored = [] then none
      else some (significand, (dropped.length : Int) - taken, true, rest)
    | rest => some (significand, (dropped.length : Int), false, rest)
  let (power, rest) ← readPower? rest
  match power with
  | some power => return (← floatOf negative significand (shift + power), rest)
  | none =>
    if isFraction ∨ dropped ≠ [] then
      return (← floatOf negative significand shift, rest)
    else if negative then
      if significand = 0 ∨ UInt64.size / 2 < significand then
        return (float (.ofFloat (-(Float.ofNat significand))), rest)
      else return (int (-(significand : Int)), rest)
    else return (int significand, rest)

def readWord? (word : List Char) (value : Json) (cs : List Char) : Option (Json × List Char) :=
  if word.isPrefixOf cs then some (value, cs.drop word.length) else none

mutual

def readValue? : Nat → List Char → Option (Json × List Char)
  | 0, _ => none
  | fuel + 1, cs =>
    match skipBlanks cs with
    | '\x7b' :: rest =>
      match skipBlanks rest with
      | '\x7d' :: rest => some (obj [], rest)
      | rest => readMembers? fuel [] rest
    | '[' :: rest =>
      match skipBlanks rest with
      | ']' :: rest => some (arr [], rest)
      | rest => readItems? fuel [] rest
    | '"' :: rest => (readString? fuel [] rest).map fun (s, rest) => (str s, rest)
    | 't' :: rest => readWord? ['r', 'u', 'e'] (bool true) rest
    | 'f' :: rest => readWord? ['a', 'l', 's', 'e'] (bool false) rest
    | 'n' :: rest => readWord? ['u', 'l', 'l'] null rest
    | '-' :: rest => readNumber? true rest
    | rest => readNumber? false rest

def readItems? : Nat → List Json → List Char → Option (Json × List Char)
  | 0, _, _ => none
  | fuel + 1, done, cs => do
    let (item, rest) ← readValue? fuel cs
    match skipBlanks rest with
    | ',' :: rest => readItems? fuel (item :: done) rest
    | ']' :: rest => some (arr (item :: done).reverse, rest)
    | _ => none

def readMembers? : Nat → List (String × Json) → List Char → Option (Json × List Char)
  | 0, _, _ => none
  | fuel + 1, done, cs => do
    match skipBlanks cs with
    | '"' :: rest =>
      let (name, rest) ← readString? fuel [] rest
      match skipBlanks rest with
      | ':' :: rest =>
        let (value, rest) ← readValue? fuel rest
        match skipBlanks rest with
        | ',' :: rest => readMembers? fuel ((name, value) :: done) rest
        | '\x7d' :: rest => some (object ((name, value) :: done).reverse, rest)
        | _ => none
      | _ => none
    | _ => none

end

def read? (s : String) : Option Json := do
  let cs := s.toList
  let (value, rest) ← readValue? (2 * cs.length + 2) cs
  if (skipBlanks rest).isEmpty then some value else none

end Json
end PageDispatch
