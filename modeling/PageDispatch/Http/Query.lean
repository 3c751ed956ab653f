import PageDispatch.Text.Utf8

/-!
This module contains the parameters of a query: pairs between ampersands, a plus sign for a space
and percent signs before the hexadecimal digits of octets.
-/

namespace PageDispatch
namespace Query

def hexValue? (b : UInt8) : Option UInt8 :=
  if 0x30 ≤ b && b ≤ 0x39 then some (b - 0x30)
  else if 0x41 ≤ b && b ≤ 0x46 then some (b - 0x41 + 10)
  else if 0x61 ≤ b && b ≤ 0x66 then some (b - 0x61 + 10)
  else none

/-- Octets with their escapes resolved. A percent sign without two digits stands for itself. -/
def unescape : Bytes → Bytes
  | [] => []
  | b :: rest =>
    if b == 0x2B then 0x20 :: unescape rest
    else if b == 0x25 then
      match rest with
      | high :: low :: rest' =>
        match hexValue? high, hexValue? low with
        | some x, some y => (x * 16 + y) :: unescape rest'
        | _, _ => b :: unescape (high :: low :: rest')
      | rest => b :: unescape rest
    else b :: unescape rest

def decode (bs : Bytes) : String :=
  Utf8.decodeLossy (unescape bs)

def splitOn (separator : UInt8) : Bytes → List Bytes
  | [] => [[]]
  | b :: rest =>
    if b == separator then [] :: splitOn separator rest
    else
      match splitOn separator rest with
      | piece :: pieces => (b :: piece) :: pieces
      | [] => [[b]]

def parsePair (piece : Bytes) : String × String :=
  let (name, rest) := piece.span (· != 0x3D)
  (decode name, decode (rest.drop 1))

/-- The parameters of a query in order. Empty pieces are none. -/
def parse (query : String) : List (String × String) :=
  ((splitOn 0x26 (Utf8.encode query)).filter (!·.isEmpty)).map parsePair

end Query
end PageDispatch
