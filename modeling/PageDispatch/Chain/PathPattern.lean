import PageDispatch.Context

/-!
This module contains path patterns: segments between slashes, of which those in braces capture a
segment of the path.
-/

namespace PageDispatch

/-- A segment of a pattern: a text to be met exactly, or the name of a parameter. -/
inductive Segment where
  | literal (text : List Char)
  | param (name : String)
  deriving DecidableEq, Repr

namespace Segment

def capture? (s : Segment) (piece : List Char) : Option (List (String × String)) :=
  match s with
  | .literal text => if piece = text then some [] else none
  | .param name => if piece.isEmpty then none else some [(name, String.ofList piece)]

end Segment

structure PathPattern where
  source : String
  segments : List Segment
  deriving DecidableEq, Repr

structure EmptyParameter where
  pattern : String
  deriving DecidableEq, Repr

namespace EmptyParameter

def toCauseChain (e : EmptyParameter) : CauseChain :=
  .of ("empty parameter name in path pattern " ++ Quoted.quote e.pattern)

end EmptyParameter

namespace PathPattern

def pieces : List Char → List (List Char)
  | [] => [[]]
  | c :: rest =>
    if c = '/' then [] :: pieces rest
    else
      match pieces rest with
      | piece :: others => (c :: piece) :: others
      | [] => [[c]]

def braced? (segment : List Char) : Option (List Char) :=
  match segment with
  | '\x7b' :: rest => if rest.getLast? = some '\x7d' then some rest.dropLast else none
  | _ => none

/-- The segment that a piece spells, unless it is a parameter without name. -/
def segment? (piece : List Char) : Option Segment :=
  match braced? piece with
  | none => some (.literal piece)
  | some [] => none
  | some name => some (.param (String.ofList name))

def parse (pattern : String) : Except EmptyParameter PathPattern :=
  match ((pieces pattern.toList).filter (!·.isEmpty)).mapM segment? with
  | some segments => .ok ⟨pattern, segments⟩
  | none => .error ⟨pattern⟩

/-- What the segments capture from a path that starts with a slash and may end in one more. -/
def capture : List Segment → List Char → Option (List (String × String))
  | [], rest => if rest = [] ∨ rest = ['/'] then some [] else none
  | segment :: segments, '/' :: rest =>
    (segment.capture? (rest.takeWhile (· ≠ '/'))).bind fun here =>
      (capture segments (rest.dropWhile (· ≠ '/'))).map (here ++ ·)
  | _ :: _, _ => none

/-- The parameters of a path, if it fits. Without segments the path has to be the root. -/
def matches? (p : PathPattern) (path : String) : Option PathParams :=
  let cs := path.toList
  if p.segments.isEmpty then
    if cs = ['/'] ∨ cs = ['/', '/'] then some ⟨[]⟩ else none
  else (capture p.segments cs).map PathParams.mk

end PathPattern
end PageDispatch
