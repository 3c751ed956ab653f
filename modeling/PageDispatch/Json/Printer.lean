import PageDispatch.Json.Basic
import PageDispatch.Numeral.FloatText

/-!
This module contains the texts of JSON values: the compact one, without any blanks, and the
indented one.
-/

namespace PageDispatch
namespace Json

def twoDigits (n : Nat) : List Char :=
  [Nat.digitChar (n / 16 % 16), Nat.digitChar (n % 16)]

def escapeChar (c : Char) : List Char :=
  if c = '"' then ['\\', '"']
  else if c = '\\' then ['\\', '\\']
  else if c = '\n' then ['\\', 'n']
  else if c = '\r' then ['\\', 'r']
  else if c = '\t' then ['\\', 't']
  else if c = '\x08' then ['\\', 'b']
  else if c = '\x0c' then ['\\', 'f']
  else if c.toNat < 0x20 then ['\\', 'u', '0', '0'] ++ twoDigits c.toNat
  else [c]

def literal (s : String) : String :=
  String.ofList (['"'] ++ s.toList.flatMap escapeChar ++ ['"'])

mutual

def compact : Json → String
  | null => "null"
  | bool b => if b then "true" else "false"
  | int n => toString n
  | float x => FloatText.document x
  | str s => literal s
  | arr items => "[" ++ String.intercalate "," (compactItems items) ++ "]"
  | obj members => "\x7b" ++ String.intercalate "," (compactMembers members) ++ "\x7d"

def compactItems : List Json → List String
  | [] => []
  | item :: rest => compact item :: compactItems rest

def compactMembers : List (String × Json) → List String
  | [] => []
  | (name, value) :: rest => (literal name ++ ":" ++ compact value) :: compactMembers rest

end

def block (indent opening closing : String) (texts : List String) : String :=
  if texts.isEmpty then opening ++ closing
  else
    let inner := "\n" ++ indent ++ "  "
    opening ++ inner ++ String.intercalate ("," ++ inner) texts ++ "\n" ++ indent ++ closing

mutual

/-- The text of a value with one item or member a line; lines after the first start with `indent`. -/
def pretty (indent : String) : Json → String
  | arr items => block indent "[" "]" (prettyItems (indent ++ "  ") items)
  | obj members => block indent "\x7b" "\x7d" (prettyMembers (indent ++ "  ") members)
  | null => compact null
  | bool b => compact (bool b)
  | int n => compact (int n)
  | float x => compact (float x)
  | str s => compact (str s)

def prettyItems (indent : String) : List Json → List String
  | [] => []
  | item :: rest => pretty indent item :: prettyItems indent rest

def prettyMembers (indent : String) : List (String × Json) → List String
  | [] => []
  | (name, value) :: rest =>
    (literal name ++ ": " ++ pretty indent value) :: prettyMembers indent rest

end

end Json
end PageDispatch
