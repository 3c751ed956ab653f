import PageDispatch.Text.Ranges
import PageDispatch.Text.PrintableTable

/-!
This module contains the quoted form of texts in messages: double quotes around the text, a
backslash before what would end or disturb it, and braced hexadecimal code points for characters
that cannot be seen.
-/

namespace PageDispatch
namespace Quoted

def isPrintable (c : Char) : Bool :=
  if c.toNat < 0x80 then 0x20 ≤ c.toNat && c.toNat < 0x7F
  else
    !Ranges.contains PrintableTable.unprintable c
      && !Ranges.contains PrintableTable.graphemeExtend c

def braced (c : Char) : List Char :=
  ['\\', 'u', '\x7b'] ++ Nat.toDigits 16 c.toNat ++ ['\x7d']

def quoteChar (c : Char) : List Char :=
  if c = '\x00' then ['\\', '0']
  else if c = '\t' then ['\\', 't']
  else if c = '\n' then ['\\', 'n']
  else if c = '\r' then ['\\', 'r']
  else if c = '\\' then ['\\', '\\']
  else if c = '"' then ['\\', '"']
  else if isPrintable c then [c]
  else braced c

def quote (s : String) : String :=
  String.ofList (['"'] ++ s.toList.flatMap quoteChar ++ ['"'])

end Quoted
end PageDispatch
