import PageDispatch.Text.Ranges
import PageDispatch.Text.CaseTable

/-!
This module contains the lower case of texts: the case map of Unicode without a locale, with the
final form of sigma at the end of a word, and the ASCII part of that map on its own.
-/

namespace PageDispatch
namespace Lowercase

def isCased (c : Char) : Bool :=
  if c.toNat < 0x80 then c.isAlpha else Ranges.contains CaseTable.cased c

def isCaseIgnorable (c : Char) : Bool :=
  Ranges.contains CaseTable.caseIgnorable c

def lowerChar (c : Char) : List Char :=
  if c.toNat < 0x80 then [c.toLower]
  else if c = '\u0130' then ['i', '\u0307']
  else
    let n := c.toNat
    match CaseTable.lowerRuns.find? fun (first, last, step, _) =>
        first ≤ n && n ≤ last && (n - first) % step == 0 with
    | some (_, _, _, distance) => [Char.ofNat (Int.toNat (n + distance))]
    | none => [c]

def meetsCased (cs : List Char) : Bool :=
  match cs.dropWhile isCaseIgnorable with
  | c :: _ => isCased c
  | [] => false

/-- The lower case of a text. A capital sigma takes its final form after, but not before, a letter. -/
def lower (s : String) : String :=
  String.ofList (go [] s.toList)
where
  /-- Here `before` holds what stands to the left, nearest character first. -/
  go (before : List Char) : List Char → List Char
    | [] => []
    | c :: rest =>
      let here :=
        if c = 'Σ' then [if meetsCased before && !meetsCased rest then 'ς' else 'σ']
        else lowerChar c
      here ++ go (c :: before) rest

def lowerAscii (s : String) : String :=
  String.ofList (s.toList.map Char.toLower)

def upperAscii (s : String) : String :=
  String.ofList (s.toList.map Char.toUpper)

end Lowercase
end PageDispatch
