import PageDispatch.Yaml.Tag

/-!
This module contains the way from the characters of a YAML document to its tokens. Blocks are told
apart by the columns where they start. What turns out to be a key only at the colon behind it gets
its tokens then, at the place where it started.
-/

namespace PageDispatch
namespace Yaml

structure KeyPlace where
  required : Bool
  /-- How many tokens come before it. -/
  number : Nat
  line : Nat
  column : Nat
  index : Nat
  deriving DecidableEq, Repr

def keyLength : Nat := 1024

structure Lexer where
  cursor : Cursor
  /-- The tokens so far, the last one first. -/
  tokens : List Token
  /-- The columns of the open blocks, the innermost one first. -/
  blocks : List Nat
  place : Option KeyPlace
  /-- The same for what is around each open bracket, the innermost one first. -/
  outer : List (Option KeyPlace)
  keyAllowed : Bool
  deriving DecidableEq, Repr

namespace Lexer

def start (cs : List Char) : Lexer := ⟨.start cs, [], [], none, [], true⟩

def inFlow (s : Lexer) : Bool := !s.outer.isEmpty

def push (s : Lexer) (token : Token) : Lexer := { s with tokens := token :: s.tokens }

def insert (s : Lexer) (number : Nat) (token : Token) : Lexer :=
  let later := s.tokens.length - number
  { s with tokens := s.tokens.take later ++ token :: s.tokens.drop later }

def take (s : Lexer) (n : Nat) (token : Token) : Lexer :=
  { s.push token with cursor := s.cursor.skip n }

def takeTo (s : Lexer) (token : Token) (cursor : Cursor) : Lexer :=
  { s.push token with cursor }

/-! Blocks. -/

/-- Closes the blocks that start right of a column; without a column, all of them. -/
def closeBlocks (s : Lexer) (column : Option Nat) : Lexer :=
  if s.inFlow then s
  else
    let closed := s.blocks.takeWhile fun block => column.all (· < block)
    { s with
      tokens := List.replicate closed.length .blockEnd ++ s.tokens
      blocks := s.blocks.drop closed.length }

/-- Opens a block at a column behind the first `number` tokens, unless it is open already. -/
def openBlock (s : Lexer) (column number : Nat) (token : Token) : Lexer :=
  if s.inFlow ∨ s.blocks.head?.any (column ≤ ·) then s
  else { s.insert number token with blocks := column :: s.blocks }

/-- Opens a block here. In brackets there are none, and else it has to be a place for keys. -/
def openBlockHere? (s : Lexer) (token : Token) : Option Lexer :=
  if s.inFlow then some s
  else if s.keyAllowed then some (s.openBlock s.cursor.column s.tokens.length token)
  else none

/-! Places of keys. -/

def forgetKey? (s : Lexer) : Option Lexer :=
  if s.place.any (·.required) then none else some { s with place := none }

def noteKey? (s : Lexer) : Option Lexer :=
  if s.keyAllowed then
    s.forgetKey?.map fun s =>
      { s with
        place := some {
          required := !s.inFlow && s.blocks.head? == some s.cursor.column
          number := s.tokens.length
          line := s.cursor.line
          column := s.cursor.column
          index := s.cursor.index } }
  else some s

def fresh? (c : Cursor) (place : Option KeyPlace) : Option (Option KeyPlace) :=
  match place with
  | none => some none
  | some k =>
    if k.line < c.line ∨ k.index + keyLength < c.index then
      if k.required then none else some none
    else some (some k)

def dropStaleKeys? (s : Lexer) : Option Lexer := do
  let place ← fresh? s.cursor s.place
  let outer ← s.outer.mapM (fresh? s.cursor)
  return { s with place, outer }

/-! Tokens. -/

def skipGaps (s : Lexer) : Lexer :=
  go (s.cursor.rest.length + 1) s
where
  go : Nat → Lexer → Lexer
    | 0, s => s
    | fuel + 1, s =>
      let c := s.cursor
      let c := if c.column = 0 ∧ c.rest.head? = some '\ufeff' then c.skip 1 else c
      let tabs := s.inFlow || !s.keyAllowed
      let c := (c.skipWhile fun ch => ch == ' ' || (tabs && ch == '\t')).skipComment
      match c.takeBreak? with
      | some (_, c) => go fuel { s with cursor := c, keyAllowed := s.keyAllowed || !s.inFlow }
      | none => { s with cursor := c }

def takeLine? (s : Lexer) (read : Cursor → Option (Token × Cursor)) : Option Lexer := do
  let s ← (s.closeBlocks none).forgetKey?
  let (token, c) ← read s.cursor
  return { s.takeTo token c with keyAllowed := false }

def openFlow? (s : Lexer) (token : Token) : Option Lexer :=
  s.noteKey?.map fun s =>
    { s.take 1 token with place := none, outer := s.place :: s.outer, keyAllowed := true }

def closeFlow? (s : Lexer) (token : Token) : Option Lexer :=
  s.forgetKey?.map fun s =>
    { s.take 1 token with
      place := s.outer.head?.getD none
      outer := s.outer.drop 1
      keyAllowed := false }

def flowEntry? (s : Lexer) : Option Lexer :=
  s.forgetKey?.map fun s => { s.take 1 .flowEntry with keyAllowed := true }

def blockEntry? (s : Lexer) : Option Lexer := do
  let s ← (← s.openBlockHere? .blockSequenceStart).forgetKey?
  return { s.take 1 .blockEntry with keyAllowed := true }

def key? (s : Lexer) : Option Lexer := do
  let s ← (← s.openBlockHere? .blockMappingStart).forgetKey?
  return { s.take 1 .key with keyAllowed := !s.inFlow }

def value? (s : Lexer) : Option Lexer :=
  match s.place with
  | some k =>
    let s := (s.insert k.number .key).openBlock k.column k.number .blockMappingStart
    some { s.take 1 .value with place := none, keyAllowed := false }
  | none =>
    (s.openBlockHere? .blockMappingStart).map fun s =>
      { s.take 1 .value with keyAllowed := !s.inFlow }

def takeName? (s : Lexer) (read : Cursor → Option (Token × Cursor)) : Option Lexer := do
  let s ← s.noteKey?
  let (token, c) ← read s.cursor
  return { s.takeTo token c with keyAllowed := false }

def quoted? (s : Lexer) (quote : Char) (style : Style) : Option Lexer :=
  s.takeName? fun c => (Scalar.quoted? quote (c.skip 1)).map fun (text, c) => (.scalar text style, c)

def plain? (s : Lexer) : Option Lexer := do
  let s ← s.noteKey?
  let p ← Scalar.plain? s.inFlow (s.blocks.head?.elim 0 (· + 1)) s.cursor
  return { s.takeTo (.scalar p.text .plain) p.cursor with keyAllowed := p.isBroken }

def block? (s : Lexer) (style : Style) : Option Lexer := do
  if s.inFlow then none
  let s ← s.forgetKey?
  let (text, c) ← Scalar.block? (style == .literal) s.blocks.head? (s.cursor.skip 1)
  return { s.takeTo (.scalar text style) c with keyAllowed := true }

def next? (s : Lexer) (ch : Char) : Option Lexer :=
  let c := s.cursor
  let marks := s.inFlow || endsWord (c.rest.drop 1)
  if c.column = 0 ∧ ch = '%' then s.takeLine? Directive.read?
  else if c.atMarker '-' then s.takeLine? fun c => some (.documentStart, c.skip 3)
  else if c.atMarker '.' then s.takeLine? fun c => some (.documentEnd, c.skip 3)
  else
    match ch with
    | '[' => s.openFlow? .flowSequenceStart
    | '\x7b' => s.openFlow? .flowMappingStart
    | ']' => s.closeFlow? .flowSequenceEnd
    | '\x7d' => s.closeFlow? .flowMappingEnd
    | ',' => s.flowEntry?
    | '-' => if endsWord (c.rest.drop 1) then s.blockEntry? else s.plain?
    | '?' => if marks then s.key? else s.plain?
    | ':' => if marks then s.value? else s.plain?
    | '*' => s.takeName? fun c => (name? (c.skip 1)).map fun (name, c) => (.reference name, c)
    | '&' => s.takeName? fun c => (name? (c.skip 1)).map fun (name, c) => (.anchor name, c)
    | '!' => s.takeName? (Tag.read? s.inFlow)
    | '|' => s.block? .literal
    | '>' => s.block? .folded
    | '\'' => s.quoted? '\'' .singleQuoted
    | '"' => s.quoted? '"' .doubleQuoted
    | '%' | '@' | '\x60' | '\t' => none
    | _ => s.plain?

end Lexer

def tokens? (cs : List Char) : Option (List Token) :=
  if cs.all isAllowed then go (cs.length + 1) (.start cs) else none
where
  go : Nat → Lexer → Option (List Token)
    | 0, _ => none
    | fuel + 1, s => do
      let s ← s.skipGaps.dropStaleKeys?
      match s.cursor.rest with
      | [] =>
        let s ← (s.closeBlocks none).forgetKey?
        return s.tokens.reverse
      | ch :: _ => go fuel (← (s.closeBlocks (some s.cursor.column)).next? ch)

end Yaml
end PageDispatch
