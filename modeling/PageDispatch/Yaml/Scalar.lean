import PageDispatch.Numeral.Natural
import PageDispatch.Yaml.Cursor

/-!
This module contains the scalars of YAML documents in all their styles. Lines of a scalar are
folded: a single line break becomes a space, and of several the first one goes.
-/

namespace PageDispatch
namespace Yaml

/-- What stands between two pieces of a scalar: spaces within a line, or ends of lines. -/
inductive Gap where
  | spaces (cs : List Char)
  /-- There is no first end of a line if it was escaped. -/
  | breaks (first : Option Char) (more : List Char)
  deriving DecidableEq, Repr

namespace Gap

def text : Gap → List Char
  | spaces cs => cs
  | breaks (some '\n') [] => [' ']
  | breaks (some '\n') more => more
  | breaks first more => first.toList ++ more

def isBroken : Gap → Bool
  | spaces _ => false
  | breaks _ _ => true

def withBreak (c : Char) : Gap → Gap
  | spaces _ => breaks (some c) []
  | breaks first more => breaks first (more ++ [c])

def withSpace (c : Char) : Gap → Gap
  | spaces cs => spaces (cs ++ [c])
  | breaks first more => breaks first more

/-- Reads on in a gap. At the start of a line there is no tab left of the column `limit`. -/
def read? (limit : Nat) (gap : Gap) (c : Cursor) : Option (Gap × Cursor) :=
  go (c.rest.length + 1) gap c
where
  go : Nat → Gap → Cursor → Option (Gap × Cursor)
    | 0, gap, c => some (gap, c)
    | fuel + 1, gap, c =>
      match c.rest with
      | [] => some (gap, c)
      | ch :: _ =>
        if isSpace ch then
          if gap.isBroken ∧ ch = '\t' ∧ c.column < limit then none
          else go fuel (gap.withSpace ch) (c.skip 1)
        else
          match c.takeBreak? with
          | some (text, c) => go fuel (gap.withBreak text) c
          | none => some (gap, c)

end Gap

namespace Scalar

def isFlowMark (c : Char) : Bool :=
  c == ',' || c == '[' || c == ']' || c == '\x7b' || c == '\x7d'

/-! Plain scalars. -/

/--
The characters of a plain scalar up to a gap or its end; `flow` says whether it stands in brackets.
There a colon must not touch a mark.
-/
def plainChunk? (flow : Bool) : List Char → Option (List Char)
  | [] => some []
  | c :: rest =>
    if isGap c then some []
    else if flow && c == ':' && rest.head?.any fun d => d == '?' || isFlowMark d then none
    else if (c == ':' && endsWord rest) || (flow && isFlowMark c) then some []
    else (plainChunk? flow rest).map (c :: ·)

structure Plain where
  text : List Char
  isBroken : Bool
  cursor : Cursor

/-- Reads a plain scalar whose lines are not left of the column `limit`. -/
def plain? (flow : Bool) (limit : Nat) (c : Cursor) : Option Plain :=
  go (c.rest.length + 1) [] (.spaces []) c
where
  go : Nat → List Char → Gap → Cursor → Option Plain
    | 0, text, gap, c => some ⟨text, gap.isBroken, c⟩
    | fuel + 1, text, gap, c =>
      if c.atBoundary || c.rest.head? == some '#' then some ⟨text, gap.isBroken, c⟩
      else
        match plainChunk? flow c.rest with
        | none => none
        | some [] => some ⟨text, gap.isBroken, c⟩
        | some chunk =>
          let text := text ++ gap.text ++ chunk
          match Gap.read? limit (.spaces []) (c.skip chunk.length) with
          | none => none
          | some (gap, c) =>
            if gap = .spaces [] || (!flow && decide (c.column < limit)) then
              some ⟨text, gap.isBroken, c⟩
            else go fuel text gap c

/-! Quoted scalars. -/

/-- The characters in single quotes up to a gap or the closing quote; two quotes stand for one. -/
def singleChunk : List Char → List Char × List Char
  | '\'' :: '\'' :: rest =>
    let (text, rest) := singleChunk rest
    ('\'' :: text, rest)
  | [] => ([], [])
  | c :: rest =>
    if c = '\'' ∨ isGap c then ([], c :: rest)
    else
      let (text, rest) := singleChunk rest
      (c :: text, rest)

def letterEscape? : Char → Option Char
  | '0' => some '\x00'
  | 'a' => some '\x07'
  | 'b' => some '\x08'
  | 't' => some '\t'
  | '\t' => some '\t'
  | 'n' => some '\n'
  | 'v' => some '\x0b'
  | 'f' => some '\x0c'
  | 'r' => some '\r'
  | 'e' => some '\x1b'
  | ' ' => some ' '
  | '"' => some '"'
  | '/' => some '/'
  | '\\' => some '\\'
  | 'N' => some '\x85'
  | '_' => some '\xa0'
  | 'L' => some '\u2028'
  | 'P' => some '\u2029'
  | _ => none

def escapeDigits? : Char → Option Nat
  | 'x' => some 2
  | 'u' => some 4
  | 'U' => some 8
  | _ => none

def hexValue? (digits : List Char) : Option Nat :=
  digits.foldlM (fun acc c => (Natural.digitValue? 16 c).map (acc * 16 + ·)) 0

def charOf? (n : Nat) : Option Char :=
  if n.isValidChar then some (Char.ofNat n) else none

def escape? (letter : Char) (rest : List Char) : Option (Char × List Char) :=
  match escapeDigits? letter with
  | none => (letterEscape? letter).map (·, rest)
  | some n =>
    let digits := rest.take n
    if digits.length = n then ((hexValue? digits).bind charOf?).map (·, rest.drop n) else none

theorem length_escape?_le {letter c : Char} {rest more : List Char}
    (h : escape? letter rest = some (c, more)) : more.length ≤ rest.length := by
  rw [escape?] at h
  cases hn : escapeDigits? letter with
  | none =>
    simp only [hn, Option.map_eq_some_iff, Prod.mk.injEq] at h
    obtain ⟨_, _, _, rfl⟩ := h
    exact Nat.le_refl _
  | some n =>
    simp only [hn, Option.ite_none_right_eq_some, Option.map_eq_some_iff, Prod.mk.injEq] at h
    obtain ⟨_, _, _, _, rfl⟩ := h
    simp

/--
The characters in double quotes up to a gap, the closing quote, or a backslash at the end of a line.
-/
def doubleChunk? (cs : List Char) : Option (List Char × List Char) :=
  match cs with
  | [] => some ([], [])
  | ['\\'] => none
  | '\\' :: letter :: rest =>
    if isBreak letter then some ([], '\\' :: letter :: rest)
    else
      match _h : escape? letter rest with
      | none => none
      | some (c, more) => (doubleChunk? more).map fun (text, rest) => (c :: text, rest)
  | c :: rest =>
    if c = '"' ∨ isGap c then some ([], c :: rest)
    else (doubleChunk? rest).map fun (text, rest) => (c :: text, rest)
termination_by cs.length
decreasing_by
  · have := length_escape?_le _h
    simp only [List.length_cons]
    omega
  · simp

def quoted? (quote : Char) (c : Cursor) : Option (List Char × Cursor) :=
  go (c.rest.length + 1) [] c
where
  go : Nat → List Char → Cursor → Option (List Char × Cursor)
    | 0, _, _ => none
    | fuel + 1, text, c => do
      if c.atBoundary || c.rest.isEmpty then none
      let (chunk, rest) ← if quote = '"' then doubleChunk? c.rest else some (singleChunk c.rest)
      let text := text ++ chunk
      let c := c.skipTo rest
      if c.rest.head? = some quote then return (text, c.skip 1)
      let (gap, c) ←
        match c.rest.head? with
        | some '\\' => do
          let (_, c) ← (c.skip 1).takeBreak?
          Gap.read? 0 (.breaks none []) c
        | _ => Gap.read? 0 (.spaces []) c
      go fuel (text ++ gap.text) c

/-! Scalars in blocks of lines. -/

inductive Chomping where
  | clip
  | strip
  | keep
  deriving DecidableEq, Repr

def chomping? : Char → Option Chomping
  | '+' => some .keep
  | '-' => some .strip
  | _ => none

def increment? (c : Char) : Option Nat :=
  (Natural.digitValue? 10 c).filter (0 < ·)

/-- What stands behind the mark of a block: how it ends and how far it is indented, in any order. -/
def blockHeader? (cs : List Char) : Option (Chomping × Option Nat × List Char) :=
  match cs with
  | [] => some (.clip, none, [])
  | c :: rest =>
    match chomping? c with
    | some chomping =>
      match rest with
      | d :: more =>
        if d.isDigit then (increment? d).map fun n => (chomping, some n, more)
        else some (chomping, none, rest)
      | [] => some (chomping, none, [])
    | none =>
      if c.isDigit then
        (increment? c).map fun n =>
          match rest with
          | d :: more =>
            match chomping? d with
            | some chomping => (chomping, some n, more)
            | none => (.clip, some n, rest)
          | [] => (.clip, some n, [])
      else some (.clip, none, cs)

/--
Reads empty lines in front of a line of a block, and the indentation of that line. Answers the ends
of the empty lines and the largest indentation seen. Without a known indentation all spaces belong
to it.
-/
def emptyLines? (indent : Option Nat) (c : Cursor) : Option (List Char × Nat × Cursor) :=
  go (c.rest.length + 1) [] 0 c
where
  go : Nat → List Char → Nat → Cursor → Option (List Char × Nat × Cursor)
    | 0, breaks, deepest, c => some (breaks, deepest, c)
    | fuel + 1, breaks, deepest, c =>
      let spaces := (c.rest.takeWhile (· == ' ')).length
      let c := c.skip (indent.elim spaces fun n => min spaces (n - c.column))
      let deepest := max deepest c.column
      if indent.all (c.column < ·) ∧ c.rest.head? = some '\t' then none
      else
        match c.takeBreak? with
        | some (text, c) => go fuel (breaks ++ [text]) deepest c
        | none => some (breaks, deepest, c)

/-- What is read of a block so far, but for the ends of lines at its end. -/
structure Block where
  text : List Char
  last : Option Char
  empties : List Char
  spaced : Bool

namespace Block

def joint (b : Block) (literal spaced : Bool) : List Char :=
  if !literal && b.last == some '\n' && !b.spaced && !spaced then
    (if b.empties.isEmpty then [' '] else []) ++ b.empties
  else b.last.toList ++ b.empties

def finish (b : Block) : Chomping → List Char
  | .strip => b.text
  | .clip => b.text ++ b.last.toList
  | .keep => b.text ++ b.last.toList ++ b.empties

end Block

def blockLines? (literal : Bool) (indent : Nat) : Nat → Block → Cursor → Option (Block × Cursor)
  | 0, b, c => some (b, c)
  | fuel + 1, b, c =>
    if c.column ≠ indent ∨ c.rest.isEmpty then some (b, c)
    else
      let spaced := c.rest.head?.any isSpace
      let line := c.rest.takeWhile (!isBreak ·)
      let text := b.text ++ b.joint literal spaced ++ line
      let c := c.skip line.length
      let (last, c) :=
        match c.takeBreak? with
        | some (text, c) => (some text, c)
        | none => (none, c)
      match emptyLines? (some indent) c with
      | none => none
      | some (empties, _, c) => blockLines? literal indent fuel ⟨text, last, empties, spaced⟩ c

/-- Reads a block behind its mark. It stands in a collection at the column `outer`, if in any. -/
def block? (literal : Bool) (outer : Option Nat) (c : Cursor) : Option (List Char × Cursor) := do
  let (chomping, increment, rest) ← blockHeader? c.rest
  let c ← (c.skipTo rest).nextLine?
  let known := increment.map (outer.getD 0 + ·)
  let (empties, deepest, c) ← emptyLines? known c
  let least := outer.elim 1 (· + 1)
  let indent := known.getD (max deepest least)
  let (b, c) ← blockLines? literal indent (c.rest.length + 1) ⟨[], none, empties, false⟩ c
  return (b.finish chomping, c)

end Scalar
end Yaml
end PageDispatch
