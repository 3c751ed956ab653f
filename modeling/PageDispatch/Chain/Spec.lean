import PageDispatch.Json.Printer

/-!
This module contains the names of units in a chain that are instantiated when the chain reaches
them.
-/

namespace PageDispatch

structure UnitSpec where
  name : String
  args : Json

namespace UnitSpec

def bare (name : String) : UnitSpec := ⟨name, .null⟩

def describe (s : UnitSpec) : String :=
  if s.args.isNull then s.name else s.name ++ "(" ++ s.args.compact ++ ")"

def isBare (s : UnitSpec) : Bool := s.args.isNull

def toJson (s : UnitSpec) : Json :=
  .object [("name", .str s.name), ("args", s.args)]

/--
Reads a spec: an object with a name and perhaps arguments, or an array with the one and perhaps the
other.
-/
def ofJson? : Json → Option UnitSpec
  | .obj members =>
    match members.lookup "name" with
    | some (.str name) => some ⟨name, (members.lookup "args").getD .null⟩
    | _ => none
  | .arr [.str name] => some (bare name)
  | .arr [.str name, args] => some ⟨name, args⟩
  | _ => none

end UnitSpec
end PageDispatch
