/-!
This module contains the UTF-8 form of texts: the octets of a text, the strict decoder, and the
decoder that puts U+FFFD in place of every malformed part.
-/

namespace PageDispatch

abbrev Bytes := List UInt8

namespace Utf8

def encode (s : String) : Bytes :=
  s.toList.flatMap String.utf8EncodeChar

def isTail (b : UInt8) : Bool :=
  0x80 ≤ b && b ≤ 0xBF

/--
What a leading octet outside ASCII announces: its own share of the scalar value, the range its
second octet has to lie in, and how many tail octets follow the second one. The ranges exclude
overlong forms, surrogates and everything above U+10FFFF.
-/
def form (b : UInt8) : Option (Nat × UInt8 × UInt8 × Nat) :=
  if 0xC2 ≤ b && b ≤ 0xDF then some (b.toNat - 0xC0, 0x80, 0xBF, 0)
  else if b == 0xE0 then some (0, 0xA0, 0xBF, 1)
  else if b == 0xED then some (0xD, 0x80, 0x9F, 1)
  else if 0xE1 ≤ b && b ≤ 0xEF then some (b.toNat - 0xE0, 0x80, 0xBF, 1)
  else if b == 0xF0 then some (0, 0x90, 0xBF, 2)
  else if 0xF1 ≤ b && b ≤ 0xF3 then some (b.toNat - 0xF0, 0x80, 0xBF, 2)
  else if b == 0xF4 then some (4, 0x80, 0x8F, 2)
  else none

/-- Reads the remaining tail octets; a malformed form ends before the octet that breaks it. -/
def tails : Nat → Nat → Bytes → Option Char × Bytes
  | 0, acc, rest => (some (Char.ofNat acc), rest)
  | _ + 1, _, [] => (none, [])
  | n + 1, acc, b :: rest =>
    if isTail b then tails n (acc * 64 + (b.toNat - 0x80)) rest else (none, b :: rest)

def front (b : UInt8) (rest : Bytes) : Option Char × Bytes :=
  if b < 0x80 then (some (Char.ofNat b.toNat), rest)
  else
    match form b with
    | none => (none, rest)
    | some (lead, lo, hi, more) =>
      match rest with
      | [] => (none, [])
      | second :: rest =>
        if lo ≤ second && second ≤ hi then
          tails more (lead * 64 + (second.toNat - 0x80)) rest
        else
          (none, second :: rest)

theorem length_tails_le (n acc : Nat) (rest : Bytes) :
    (tails n acc rest).2.length ≤ rest.length := by
  induction n generalizing acc rest with
  | zero => simp [tails]
  | succ n ih =>
    cases rest with
    | nil => simp [tails]
    | cons b rest =>
      unfold tails
      split
      · exact Nat.le_trans (ih ..) (by simp)
      · simp

theorem length_front_le (b : UInt8) (rest : Bytes) : (front b rest).2.length ≤ rest.length := by
  unfold front
  split
  · simp
  · split
    · simp
    · split
      · simp
      · split
        · exact Nat.le_trans (length_tails_le ..) (by simp)
        · simp

/-- The scalar values of an octet sequence in order, with `none` for every malformed part. -/
def scalars : Bytes → List (Option Char)
  | [] => []
  | b :: rest => (front b rest).1 :: scalars (front b rest).2
termination_by bs => bs.length
decreasing_by exact Nat.lt_succ_of_le (length_front_le b rest)

def decode? (bs : Bytes) : Option String :=
  ((scalars bs).mapM id).map String.ofList

def decodeLossy (bs : Bytes) : String :=
  String.ofList ((scalars bs).map (·.getD '\uFFFD'))

end Utf8
end PageDispatch
