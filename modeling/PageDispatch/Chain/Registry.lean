import PageDispatch.Chain.Builtin
import PageDispatch.Json.Shape

/-!
This module contains registries: tables of constructors that make units of specs. Path patterns are
parsed once and kept.
-/

namespace PageDispatch

abbrev PatternCache := List (String × PathPattern)

namespace PatternCache

def getOrParse (cache : PatternCache) (pattern : String) :
    Except EmptyParameter PathPattern × PatternCache :=
  match cache.lookup pattern with
  | some hit => (.ok hit, cache)
  | none =>
    match PathPattern.parse pattern with
    | .ok fresh => (.ok fresh, (pattern, fresh) :: cache)
    | .error e => (.error e, cache)

end PatternCache

inductive Constructor where
  | path
  | custom (make : UnitSpec → Context → Attempt HandlerUnit)

namespace Constructor

def ofArgs (make : Json → Except CauseChain HandlerUnit) : Constructor :=
  custom fun spec _ => .pure (make spec.args)

def methodNames (args : Json) : Except CauseChain (List String) :=
  match args with
  | .str name => .ok [name]
  | .arr items =>
    items.mapM fun item =>
      match item with
      | .str name => .ok name
      | _ => .error (.of "method list must contain strings")
  | _ => .error (.of "method expects a string or a list of strings")

def readMethod (name : String) : Except CauseChain Method :=
  match Method.parse (Lowercase.upperAscii name) with
  | .ok method => .ok method
  | .error e => .error (e.toCauseChain.within ("invalid method " ++ Quoted.quote name))

def makeMethodMatch (args : Json) : Except CauseChain HandlerUnit := do
  let names ← methodNames args
  return .methodMatch (← names.mapM readMethod)

def makeSetHeader (args : Json) : Except CauseChain HandlerUnit :=
  match args.readPair "SetHeaderArgs" "name" "value" Json.readString Json.readString none with
  | .ok (name, value) => HandlerUnit.setHeaderText name value
  | .error e => .error ((CauseChain.of e.message).within "set_header expects \x7bname, value\x7d")

def messageOf : Json → Option ResponseMessage
  | .null => none
  | .str s => some (.text s)
  | value => some (.structured value)

def makeRespond (args : Json) : Except CauseChain HandlerUnit :=
  match args.readPair "RespondArgs" "status" "message" Json.readSmallWord .ok (some .null) with
  | .ok (code, message) =>
    match Status.ofNat code with
    | .ok status => .ok (.respond status (messageOf message))
    | .error e => .error (e.toCauseChain.within ("invalid status " ++ toString code))
  | .error e =>
    .error ((CauseChain.of e.message).within "respond expects \x7bstatus, message?\x7d")

def makePathMatch (cache : PatternCache) (args : Json) :
    Except CauseChain HandlerUnit × PatternCache :=
  match args with
  | .str pattern =>
    match cache.getOrParse pattern with
    | (.ok pattern, cache) => (.ok (.pathMatch pattern), cache)
    | (.error e, cache) => (.error e.toCauseChain, cache)
  | _ => (.error (.of "path expects a pattern string"), cache)

/-- Makes the unit of a spec; patterns it parses are kept in the cache. -/
def make (c : Constructor) (cache : PatternCache) (spec : UnitSpec) (context : Context) :
    Attempt HandlerUnit × PatternCache :=
  match c with
  | path =>
    let (result, cache) := makePathMatch cache spec.args
    (.pure result, cache)
  | custom make => (make spec context, cache)

end Constructor

structure Registry where
  constructors : List (String × Constructor)

namespace Registry

def empty : Registry := ⟨[]⟩

/-- Puts an entry in its place in the order of names, instead of one of the same name. -/
def insertEntry (name : String) (c : Constructor) :
    List (String × Constructor) → List (String × Constructor)
  | [] => [(name, c)]
  | (other, old) :: rest =>
    if name = other then (name, c) :: rest
    else if name < other then (name, c) :: (other, old) :: rest
    else (other, old) :: insertEntry name c rest

def register (r : Registry) (name : String) (c : Constructor) : Registry :=
  ⟨insertEntry name c r.constructors⟩

def builtins : Registry :=
  empty
    |>.register "method" (.ofArgs Constructor.makeMethodMatch)
    |>.register "path" .path
    |>.register "set_header" (.ofArgs Constructor.makeSetHeader)
    |>.register "respond" (.ofArgs Constructor.makeRespond)

def names (r : Registry) : List String := r.constructors.map (·.1)

def contains (r : Registry) (name : String) : Bool := (r.constructors.lookup name).isSome

def describe (r : Registry) : String :=
  "UnitRegistry \x7b units: [" ++ String.intercalate ", " (r.names.map Quoted.quote) ++ "] \x7d"

def blame (spec : UnitSpec) (a : Attempt HandlerUnit) : Attempt HandlerUnit :=
  { a with
    result := a.result.map fun made =>
      made.mapError (·.within ("failed to instantiate unit " ++ spec.describe)) }

def instantiate (r : Registry) (cache : PatternCache) (spec : UnitSpec) (context : Context) :
    Attempt HandlerUnit × PatternCache :=
  match r.constructors.lookup spec.name with
  | none => (.pure (.error (.of ("no unit registered under " ++ Quoted.quote spec.name))), cache)
  | some c =>
    let (made, cache) := c.make cache spec context
    (blame spec made, cache)

def instantiateAll (r : Registry) (context : Context) (cache : PatternCache) :
    List UnitSpec → List (Attempt HandlerUnit)
  | [] => []
  | spec :: rest =>
    let (made, cache) := r.instantiate cache spec context
    made :: r.instantiateAll context cache rest

end Registry
end PageDispatch
