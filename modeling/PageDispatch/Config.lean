import PageDispatch.Numeral.Natural
import PageDispatch.Pool
import PageDispatch.Text.Blank
import PageDispatch.Text.Lowercase
import PageDispatch.Text.Quoted
import PageDispatch.Yaml.Document

/-!
This module contains the settings of an engine: their defaults, their form in YAML documents, and
the variables of the environment that override them.
-/

namespace PageDispatch

abbrev Environment := String → Option String

namespace Backpressure

def name : Backpressure → String
  | block => "block"
  | shed => "shed"

def ofName? : String → Option Backpressure
  | "block" => some block
  | "shed" => some shed
  | _ => none

def unknown (lowered : String) : String :=
  "unknown backpressure mode " ++ Quoted.quote lowered

def parse (s : String) : Except String Backpressure :=
  match ofName? (Lowercase.lower s) with
  | some mode => .ok mode
  | none => .error (unknown (Lowercase.lower s))

end Backpressure

structure EngineConfig where
  pool : PoolConfig
  exposeDetails : Bool
  deriving DecidableEq, Repr

namespace EngineConfig

def default : EngineConfig := ⟨.default, false⟩

/-! Settings in the environment. -/

/-- A size in decimal digits, or in hexadecimal ones after `0x`; blanks around it do not count. -/
def parseStackSize (s : String) : Option UInt64 :=
  match Blank.trimChars s.toList with
  | '0' :: 'x' :: digits => (Natural.readWordIn 16 digits).toOption
  | '0' :: 'X' :: digits => (Natural.readWordIn 16 digits).toOption
  | digits => (Natural.readWordIn 10 digits).toOption

def parseWord (s : String) : Option UInt64 :=
  (Natural.readWord (Blank.trim s)).toOption

def parseFlag (s : String) : Option Bool :=
  match Lowercase.lowerAscii (Blank.trim s) with
  | "1" | "true" | "yes" | "on" => some true
  | "0" | "false" | "no" | "off" => some false
  | _ => none

def override {α : Type} (env : Environment) (name : String) (read : String → Option α) (old : α) :
    α :=
  ((env name).bind read).getD old

def applyPoolEnv (env : Environment) (c : PoolConfig) : PoolConfig where
  workers := override env "CHAINR_WORKERS" parseWord c.workers
  queueBound := override env "CHAINR_QUEUE_BOUND" parseWord c.queueBound
  backpressure :=
    override env "CHAINR_BACKPRESSURE_MODE" (fun s => (Backpressure.parse s).toOption)
      c.backpressure
  stackSize := override env "CHAINR_STACK_SIZE" parseStackSize c.stackSize

def applyEnv (env : Environment) (c : EngineConfig) : EngineConfig where
  pool := applyPoolEnv env c.pool
  exposeDetails := override env "CHAINR_EXPOSE_ERRORS" parseFlag c.exposeDetails

/-! Settings in YAML documents. -/

/-- Digits that YAML does not take for a number: those with a leading zero. -/
def isZeroPadded (digits : List Char) : Bool :=
  match digits with
  | '0' :: c :: rest => (c :: rest).all Char.isDigit
  | _ => false

def readYamlWord (cs : List Char) : Option UInt64 :=
  let unsigned :=
    match cs with
    | '+' :: rest => rest
    | cs => cs
  let read (base : Nat) (digits : List Char) : Option UInt64 :=
    match digits with
    | '+' :: _ => none
    | digits => (Natural.readWordIn base digits).toOption
  match unsigned with
  | '0' :: 'x' :: digits => read 16 digits
  | '0' :: 'o' :: digits => read 8 digits
  | '0' :: 'b' :: digits => read 2 digits
  | digits => if isZeroPadded digits then none else read 10 digits

def readYamlFlag : String → Option Bool
  | "true" | "True" | "TRUE" => some true
  | "false" | "False" | "FALSE" => some false
  | _ => none

def isNull (text : String) : Bool :=
  ["", "~", "null", "Null", "NULL"].contains text

/-- The text of a scalar that is no string: it has no quotes, or a tag that says what it is. -/
def bareText? (tag : String) : Yaml → Option String
  | .scalar _ text .plain => some text
  | .scalar (some given) text .literal => if given = Utf8.encode tag then some text else none
  | _ => none

def yamlWord? (value : Yaml) : Option UInt64 :=
  (bareText? "tag:yaml.org,2002:int" value).bind fun text => readYamlWord text.toList

def yamlFlag? (value : Yaml) : Option Bool :=
  (bareText? "tag:yaml.org,2002:bool" value).bind readYamlFlag

/-- The name that a local tag gives: what stands behind its mark. -/
def localName? : Bytes → Option String
  | 0x21 :: name => Utf8.decode? name
  | _ => none

def yamlBackpressure? : Yaml → Option Backpressure
  | .scalar tag text style =>
    match tag.bind localName? with
    | some name => if style = .plain ∧ isNull text then Backpressure.ofName? name else none
    | none => Backpressure.ofName? text
  | _ => none

/--
Reads a record field by field. A field may be given once; names that are no fields are skipped, and
nothing at all stands for no fields. References are to values in `root`.
-/
def readRecord {α : Type} (root : Yaml) (fields : List String) (set : α → String → Yaml → Option α)
    (start : α) (record : Yaml) : Option α :=
  match record with
  | .map entries => go [] start entries
  | .scalar _ "" .plain => some start
  | _ => none
where
  go (seen : List String) (a : α) : List (Yaml × Yaml) → Option α
    | [] => some a
    | (key, value) :: rest =>
      match root.target key with
      | .scalar _ name _ =>
        if fields.contains name then
          if seen.contains name then none
          else (set a name (root.target value)).bind fun a => go (name :: seen) a rest
        else go seen a rest
      | _ => none

def setPoolField (c : PoolConfig) (name : String) (value : Yaml) : Option PoolConfig :=
  match name with
  | "num_workers" => (yamlWord? value).map fun n => { c with workers := n }
  | "queue_bound" => (yamlWord? value).map fun n => { c with queueBound := n }
  | "backpressure_mode" => (yamlBackpressure? value).map fun b => { c with backpressure := b }
  | "stack_size" => (yamlWord? value).map fun n => { c with stackSize := n }
  | _ => some c

def poolFields : List String := ["num_workers", "queue_bound", "backpressure_mode", "stack_size"]

def readPool (root value : Yaml) : Option PoolConfig :=
  readRecord root poolFields setPoolField .default value

def setField (root : Yaml) (c : EngineConfig) (name : String) (value : Yaml) :
    Option EngineConfig :=
  match name with
  | "pool" => (readPool root value).map fun pool => { c with pool }
  | "expose_error_details" => (yamlFlag? value).map fun b => { c with exposeDetails := b }
  | _ => some c

def ofYaml? (value : Yaml) : Option EngineConfig :=
  readRecord value ["pool", "expose_error_details"] (setField value) default (value.target value)

def fromYaml? (document : String) : Option EngineConfig :=
  if (Blank.trimChars document.toList).isEmpty then some default
  else (Yaml.read? document).bind ofYaml?

def poolSettings (c : PoolConfig) : List (String × String) := [
  ("num_workers", toString c.workers),
  ("queue_bound", toString c.queueBound),
  ("backpressure_mode", c.backpressure.name),
  ("stack_size", toString c.stackSize)]

def settings (c : EngineConfig) : List Yaml.Settings := [
  .group "pool" (poolSettings c.pool),
  .leaf "expose_error_details" (toString c.exposeDetails)]

def toYaml (c : EngineConfig) : String := Yaml.renderSettings c.settings

def load? (document : String) (env : Environment) : Option EngineConfig :=
  (fromYaml? document).map (applyEnv env)

def resolve? (document : Option String) (env : Environment) : Option EngineConfig :=
  match document with
  | some document => load? document env
  | none => some (applyEnv env default)

end EngineConfig
end PageDispatch
