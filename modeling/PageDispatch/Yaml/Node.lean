import PageDispatch.Yaml.Token

/-!
This module contains the values that tokens stand for: scalars, and collections with and without
brackets. Where a token of another kind stands in the place of a value, the value is blank.
-/

namespace PageDispatch
namespace Yaml

structure Reading where
  tokens : List Token
  handles : List (List Char × Bytes)
  anchors : List (List Char × Nat)
  deriving DecidableEq, Repr

abbrev Reader := StateT Reading Option

namespace Reader

def peek : Reader (Option Token) := do return (← get).tokens.head?

def skip : Reader Unit := modify fun r => { r with tokens := r.tokens.drop 1 }

def isNext (tokens : List Token) : Reader Bool := do return (← peek).any tokens.contains

def expect (token : Token) : Reader Unit := do
  if ← isNext [token] then skip else failure

/-! Names. -/

/-- The label of a new anchor: how many names there were before. A name may be used again. -/
def newLabel (name : List Char) : Reader Nat := do
  let anchors := (← get).anchors
  modify fun r => { r with anchors := (name, anchors.length) :: anchors.filter (·.1 ≠ name) }
  return anchors.length

def labelOf (name : List Char) : Reader Nat := do
  match (← get).anchors.lookup name with
  | some label => return label
  | none => failure

def fullTag (handle : List Char) (suffix : Bytes) : Reader Bytes := do
  if handle.isEmpty then return suffix
  match (← get).handles.lookup handle with
  | some start => return start ++ suffix
  | none => failure

def anchor? : Reader (Option (List Char)) := do
  match ← peek with
  | some (.anchor name) => do skip; return some name
  | _ => return none

def tag? : Reader (Option Bytes) := do
  match ← peek with
  | some (.tag handle suffix) => do skip; return some (← fullTag handle suffix)
  | _ => return none

def properties : Reader (Option (List Char) × Option Bytes) := do
  match ← anchor? with
  | some name => return (some name, ← tag?)
  | none =>
    let tag ← tag?
    return (← anchor?, tag)

/-! Values. -/

def neutralTag : Bytes := [0x21]

mutual

/-- Reads a value; `loose` says whether a sequence may start without a block of its own. -/
def node (loose : Bool) : Nat → Reader Yaml
  | 0 => failure
  | fuel + 1 => do
    if let some (.reference name) ← peek then
      skip
      return .reference (← labelOf name)
    let (anchor, tag) ← properties
    let label ← anchor.mapM newLabel
    let value ← content loose (anchor.isSome || tag.isSome) tag fuel
    return label.elim value (.anchored · value)

def content (loose named : Bool) (tag : Option Bytes) : Nat → Reader Yaml
  | 0 => failure
  | fuel + 1 => do
    match ← peek with
    | some (.scalar text style) => do
      skip
      return .scalar (tag.filter (· ≠ neutralTag)) (String.ofList text) style
    | some .flowSequenceStart => do skip; return .seq (← flowItems true fuel)
    | some .flowMappingStart => do skip; return .map (← flowEntries true fuel)
    | some .blockSequenceStart => do skip; return .seq (← blockItems fuel)
    | some .blockMappingStart => do skip; return .map (← blockEntries fuel)
    | token =>
      if loose ∧ token = some .blockEntry then return .seq (← looseItems fuel)
      else if named then return .scalar tag "" .plain
      else failure

def nodeBefore (stops : List Token) (loose : Bool) : Nat → Reader Yaml
  | 0 => failure
  | fuel + 1 => do
    if ← isNext stops then return blank else node loose fuel

def valueBefore (stops : List Token) (loose : Bool) : Nat → Reader Yaml
  | 0 => failure
  | fuel + 1 => do
    if ← isNext [.value] then
      skip
      nodeBefore stops loose fuel
    else return blank

def blockItems : Nat → Reader (List Yaml)
  | 0 => failure
  | fuel + 1 => do
    if ← isNext [.blockEnd] then
      skip
      return []
    expect .blockEntry
    let item ← nodeBefore [.blockEntry, .blockEnd] false fuel
    return item :: (← blockItems fuel)

def looseItems : Nat → Reader (List Yaml)
  | 0 => failure
  | fuel + 1 => do
    if ← isNext [.blockEntry] then
      skip
      let item ← nodeBefore [.blockEntry, .key, .value, .blockEnd] false fuel
      return item :: (← looseItems fuel)
    else return []

def blockEntries : Nat → Reader (List (Yaml × Yaml))
  | 0 => failure
  | fuel + 1 => do
    if ← isNext [.blockEnd] then
      skip
      return []
    expect .key
    let stops := [.key, .value, .blockEnd]
    let key ← nodeBefore stops true fuel
    let value ← valueBefore stops true fuel
    return (key, value) :: (← blockEntries fuel)

/-- Reads items up to the closing bracket. There are commas between them, but not before the first. -/
def flowItems (first : Bool) : Nat → Reader (List Yaml)
  | 0 => failure
  | fuel + 1 => do
    if !first && !(← isNext [.flowSequenceEnd]) then expect .flowEntry
    if ← isNext [.flowSequenceEnd] then
      skip
      return []
    let item ← if ← isNext [.key] then pair fuel else node false fuel
    return item :: (← flowItems false fuel)

/--
Reads a single entry that is an item of a sequence. If its key is missing, so is the token behind
it.
-/
def pair : Nat → Reader Yaml
  | 0 => failure
  | fuel + 1 => do
    expect .key
    let stops := [.flowEntry, .flowSequenceEnd]
    let key ←
      if ← isNext (.value :: stops) then do
        skip
        pure blank
      else node false fuel
    let value ← valueBefore stops false fuel
    return .map [(key, value)]

def flowEntries (first : Bool) : Nat → Reader (List (Yaml × Yaml))
  | 0 => failure
  | fuel + 1 => do
    if !first && !(← isNext [.flowMappingEnd]) then expect .flowEntry
    if ← isNext [.flowMappingEnd] then
      skip
      return []
    let stops := [.flowEntry, .flowMappingEnd]
    let entry ←
      if ← isNext [.key] then do
        skip
        let key ← nodeBefore (.value :: stops) false fuel
        pure (key, ← valueBefore stops false fuel)
      else pure (← node false fuel, blank)
    return entry :: (← flowEntries false fuel)

end

def value : Reader Yaml := do
  node false (5 * ((← get).tokens.length + 1))

end Reader
end Yaml
end PageDispatch
