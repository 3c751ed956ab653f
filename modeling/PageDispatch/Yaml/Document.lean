import PageDispatch.Yaml.Lexer
import PageDispatch.Yaml.Node

/-!
This module contains whole documents: their directives, and the value that they hold.
-/

namespace PageDispatch
namespace Yaml

def commonHandles : List (List Char × Bytes) := [
  (['!'], [0x21]),
  (['!', '!'], Utf8.encode "tag:yaml.org,2002:")]

namespace Reader

def addHandle (name : List Char) (start : Bytes) : Reader Unit := do
  if (← get).handles.any (·.1 == name) then failure
  modify fun r => { r with handles := (name, start) :: r.handles }

/--
Reads the directives of a document. The version may be stated once; `versioned` says whether it
was.
-/
def directives (versioned : Bool) : Nat → Reader Unit
  | 0 => failure
  | fuel + 1 => do
    match ← peek with
    | some (.version major minor) => do
      if versioned ∨ major ≠ 1 ∨ (minor ≠ 1 ∧ minor ≠ 2) then failure
      skip
      directives true fuel
    | some (.handle name start) => do
      addHandle name start
      skip
      directives versioned fuel
    | _ => return

def isBoundary : Token → Bool
  | .version _ _ | .handle _ _ | .documentStart | .documentEnd => true
  | _ => false

def addCommonHandles : Reader Unit :=
  modify fun r => { r with handles := r.handles ++ commonHandles }

def marked : Reader Yaml := do
  directives false ((← get).tokens.length + 1)
  addCommonHandles
  expect .documentStart
  if (← peek).all isBoundary then return blank else value

def unmarked : Reader Yaml := do
  addCommonHandles
  value

def document : Reader Yaml := do
  let value ←
    match ← peek with
    | none => pure blank
    | some (.version _ _) | some (.handle _ _) | some .documentStart => marked
    | some _ => unmarked
  if ((← get).tokens.dropWhile (· == .documentEnd)).isEmpty then return value else failure

end Reader

def read? (text : String) : Option Yaml := do
  let tokens ← tokens? text.toList
  let (value, _) ← Reader.document.run ⟨tokens, [], []⟩
  return value

end Yaml
end PageDispatch
