import PageDispatch.Yaml.Scalar
import PageDispatch.Yaml.Token

/-!
This module contains the names in YAML documents: anchors, tags, and the directives at the start of
a document.
-/

namespace PageDispatch
namespace Yaml

/-! Anchors and references. -/

def endsName : List Char → Bool
  | [] => true
  | c :: _ => isGap c || "?:,]\x7d%@\x60".toList.contains c

def name? (c : Cursor) : Option (List Char × Cursor) :=
  let name := c.rest.takeWhile isWordChar
  let c := c.skip name.length
  if !name.isEmpty && endsName c.rest then some (name, c) else none

namespace Tag

/-! Parts of tags. -/

def isUriChar (bracketed : Bool) (c : Char) : Bool :=
  isWordChar c || ";/?:@&=+$.%!~*'()".toList.contains c || (bracketed && ",[]".toList.contains c)

def width? (b : Nat) : Option Nat :=
  if b < 0x80 then some 1
  else if 0xC0 ≤ b ∧ b < 0xE0 then some 2
  else if 0xE0 ≤ b ∧ b < 0xF0 then some 3
  else if 0xF0 ≤ b ∧ b < 0xF8 then some 4
  else none

def octet? : List Char → Option Nat
  | [high, low] => Scalar.hexValue? [high, low]
  | _ => none

def tails? : Nat → List Char → Option (Bytes × List Char)
  | 0, cs => some ([], cs)
  | n + 1, '%' :: cs => do
    let octet ← octet? (cs.take 2)
    if octet / 0x40 ≠ 2 then none
    let (octets, cs) ← tails? n (cs.drop 2)
    return (octet.toUInt8 :: octets, cs)
  | _ + 1, _ => none

def escape? (cs : List Char) : Option (Bytes × List Char) := do
  let octet ← octet? (cs.take 2)
  let width ← width? octet
  let (octets, cs) ← tails? (width - 1) (cs.drop 2)
  return (octet.toUInt8 :: octets, cs)

def uri? (bracketed : Bool) (cs : List Char) : Option (Bytes × List Char) :=
  go (cs.length + 1) cs
where
  go : Nat → List Char → Option (Bytes × List Char)
    | 0, cs => some ([], cs)
    | _ + 1, [] => some ([], [])
    | fuel + 1, c :: cs =>
      if isUriChar bracketed c then do
        let (octets, cs) ← if c = '%' then escape? cs else some (Utf8.encode c.toString, cs)
        let (more, cs) ← go fuel cs
        return (octets ++ more, cs)
      else some ([], c :: cs)

/-- Takes characters as `uri?` does, and at least one of them. The text ends in front of a NUL. -/
def someUri? (bracketed : Bool) (cs : List Char) : Option (Bytes × List Char) := do
  let (octets, rest) ← uri? bracketed cs
  if octets.isEmpty then none
  return (octets.takeWhile (· != 0), rest)

/-- Takes the handle at the start of a tag: its first mark, a word, and maybe a second mark. -/
def handle? : List Char → Option (List Char × List Char)
  | '!' :: cs =>
    let word := cs.takeWhile isWordChar
    let (mark, rest) :=
      match cs.drop word.length with
      | '!' :: rest => (['!'], rest)
      | rest => ([], rest)
    some ('!' :: word ++ mark, rest)
  | _ => none

def isClosed (handle : List Char) : Bool :=
  1 < handle.length && handle.getLast? == some '!'

/-! Tags. -/

def takeBracketed? (cs : List Char) : Option (Token × List Char) := do
  let (suffix, rest) ← someUri? true cs
  match rest with
  | '>' :: rest => return (.tag [] suffix, rest)
  | _ => none

/-- Takes a tag with or without a handle. What looks like a handle without end is part of the tag. -/
def takeShort? (cs : List Char) : Option (Token × List Char) := do
  let (handle, rest) ← handle? cs
  if isClosed handle then
    let (suffix, rest) ← someUri? false rest
    return (.tag handle suffix, rest)
  else
    let (octets, rest) ← uri? false rest
    let suffix := (Utf8.encode (String.ofList (handle.drop 1)) ++ octets).takeWhile (· != 0)
    return (if suffix.isEmpty then .tag [] [0x21] else .tag ['!'] suffix, rest)

def read? (flow : Bool) (c : Cursor) : Option (Token × Cursor) := do
  let (tag, rest) ←
    match c.rest with
    | '!' :: '<' :: rest => takeBracketed? rest
    | rest => takeShort? rest
  if endsWord rest || (flow && rest.head? == some ',') then return (tag, c.skipTo rest) else none

end Tag

/-! Directives. -/

namespace Directive

def number? (cs : List Char) : Option (Nat × List Char) :=
  let digits := cs.takeWhile Char.isDigit
  if digits.isEmpty ∨ 9 < digits.length then none
  else some (digits.foldl (fun acc d => acc * 10 + (d.toNat - 0x30)) 0, cs.drop digits.length)

def version? (cs : List Char) : Option (Token × List Char) := do
  let (major, rest) ← number? cs
  match rest with
  | '.' :: rest =>
    let (minor, rest) ← number? rest
    return (.version major minor, rest)
  | _ => none

def handle? (cs : List Char) : Option (Token × List Char) := do
  let (name, rest) ← Tag.handle? cs
  if name ≠ ['!'] ∧ ¬ Tag.isClosed name then none
  if !rest.head?.any isSpace then none
  let (start, rest) ← Tag.someUri? true (rest.dropWhile isSpace)
  if endsWord rest then return (.handle name start, rest) else none

def read? (c : Cursor) : Option (Token × Cursor) := do
  let name := (c.rest.drop 1).takeWhile isWordChar
  let rest := c.rest.drop (name.length + 1)
  if !endsWord rest then none
  let (directive, rest) ←
    match String.ofList name with
    | "YAML" => version? (rest.dropWhile isSpace)
    | "TAG" => handle? (rest.dropWhile isSpace)
    | _ => none
  let c ← (c.skipTo rest).nextLine?
  return (directive, c)

end Directive
end Yaml
end PageDispatch
