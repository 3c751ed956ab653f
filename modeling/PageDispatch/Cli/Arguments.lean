/-!
This module contains the command line: its options and subcommands, and how arguments are matched
with them.
-/

namespace PageDispatch
namespace Cli

inductive OptionKind where
  | flag
  | single
  /-- A path, which may not be empty. -/
  | path
  | repeated
  | help
  deriving DecidableEq, Repr

structure OptionSpec where
  long : String
  letter : Option Char
  kind : OptionKind
  deriving DecidableEq, Repr

inductive UsageError where
  /-- Help was asked for: on everything or on one subcommand. -/
  | help (subcommand : Option String)
  | nothingGiven
  | missingSubcommand
  | unknownSubcommand
  | unknownArgument
  | missingRequired
  | badValue
  | conflict
  | needlessValue
  deriving DecidableEq, Repr

/-- The options given so far with their values, oldest one first; flags have the empty value. -/
abbrev Given := List (String × String)

namespace OptionSpec

def takesValue (o : OptionSpec) : Bool :=
  match o.kind with
  | .flag | .help => false
  | _ => true

end OptionSpec

/-- The state of matching: what was given, and an option that still waits for being noted. -/
structure Matching where
  given : Given
  pending : Option (OptionSpec × Option String)

namespace Matching

def note (m : Matching) (command : Option String) (o : OptionSpec) (value : String) :
    Except UsageError Matching :=
  let again := m.given.any fun (name, _) => name == o.long
  match o.kind with
  | .help => .error (.help command)
  | .repeated => .ok { m with given := m.given ++ [(o.long, value)] }
  | .path =>
    if again then .error .conflict
    else if value.isEmpty then .error .badValue
    else .ok { m with given := m.given ++ [(o.long, value)] }
  | _ => if again then .error .conflict else .ok { m with given := m.given ++ [(o.long, value)] }

def resolve (m : Matching) (command : Option String) : Except UsageError Matching :=
  match m.pending with
  | none => .ok m
  | some (_, none) => .error .badValue
  | some (o, some value) => ({ m with pending := none } : Matching).note command o value

end Matching

structure CommandSpec where
  name : Option String
  options : List OptionSpec
  subcommands : List String

def matchOption (c : CommandSpec) (m : Matching) (o : OptionSpec) (attached : Option String) :
    Except UsageError Matching := do
  if o.takesValue then
    let m ← m.resolve c.name
    match attached with
    | some value => m.note c.name o value
    | none => return { m with pending := some (o, none) }
  else
    match attached with
    | some _ => .error .needlessValue
    | none => (← m.resolve c.name).note c.name o ""

/-- Matches the letters of an argument. After an option with a value the rest is that value. -/
def matchLetters (c : CommandSpec) (m : Matching) : List Char → Except UsageError Matching
  | [] => .ok m
  | letter :: rest =>
    match c.options.find? (·.letter == some letter) with
    | none => .error .unknownArgument
    | some o =>
      if o.takesValue then
        let attached :=
          match rest with
          | [] => none
          | '=' :: value => some (String.ofList value)
          | value => some (String.ofList value)
        matchOption c m o attached
      else do
        let m ← matchOption c m o none
        matchLetters c m rest

def matchLong (c : CommandSpec) (m : Matching) (text : List Char) : Except UsageError Matching :=
  let name := String.ofList (text.takeWhile (· ≠ '='))
  let attached :=
    match text.dropWhile (· ≠ '=') with
    | _ :: value => some (String.ofList value)
    | [] => none
  match c.options.find? (·.long == name) with
  | some o => matchOption c m o attached
  | none => .error .unknownArgument

def misplaced (c : CommandSpec) (trailing : Bool) (argument : String) : UsageError :=
  if c.subcommands.isEmpty || (trailing && c.subcommands.contains argument) then .unknownArgument
  else .unknownSubcommand

/-- Matches arguments up to a subcommand; answers that subcommand with the arguments after it. -/
def matchArguments (c : CommandSpec) (trailing : Bool) (m : Matching) :
    List String → Except UsageError (Given × Option (String × List String))
  | [] => do
    let m ← m.resolve c.name
    return (m.given, none)
  | argument :: rest =>
    let waits := m.pending.any fun (_, value) => value.isNone
    if trailing then .error (misplaced c trailing argument)
    else if !waits && c.subcommands.contains argument then do
      let m ← m.resolve c.name
      return (m.given, some (argument, rest))
    else
      match argument.toList with
      | ['-', '-'] => matchArguments c true m rest
      | '-' :: '-' :: text => do
        let m ← matchLong c m text
        matchArguments c false m rest
      | '-' :: letter :: letters => do
        let m ← matchLetters c m (letter :: letters)
        matchArguments c false m rest
      | _ =>
        match m.pending with
        | some (o, none) => matchArguments c false { m with pending := some (o, some argument) } rest
        | _ => .error (misplaced c trailing argument)

structure ProbeArgs where
  method : String
  target : String
  headers : List String
  body : Option String
  config : Option String
  metrics : Bool
  deriving DecidableEq, Repr

inductive Command where
  | probe (args : ProbeArgs)
  | config (path : Option String)
  deriving DecidableEq, Repr

structure Invocation where
  verbose : Bool
  command : Command
  deriving DecidableEq, Repr

def verboseOption : OptionSpec := ⟨"verbose", some 'v', .flag⟩
def helpOption : OptionSpec := ⟨"help", some 'h', .help⟩
def configOption : OptionSpec := ⟨"config", some 'c', .path⟩

def mainSpec : CommandSpec :=
  ⟨none, [verboseOption, helpOption], ["probe", "config", "help"]⟩

def probeSpec : CommandSpec where
  name := some "probe"
  options := [
    ⟨"method", some 'm', .single⟩,
    ⟨"target", some 't', .single⟩,
    ⟨"header", some 'H', .repeated⟩,
    ⟨"body", some 'b', .single⟩,
    configOption,
    ⟨"metrics", none, .flag⟩,
    verboseOption,
    helpOption]
  subcommands := []

def configSpec : CommandSpec where
  name := some "config"
  options := [configOption, verboseOption, helpOption]
  subcommands := []

namespace Given

def value? (g : Given) (name : String) : Option String := g.lookup name

def values (g : Given) (name : String) : List String :=
  (g.filter fun (other, _) => other == name).map (·.2)

def has (g : Given) (name : String) : Bool := (g.value? name).isSome

end Given

def matchAll (c : CommandSpec) (arguments : List String) : Except UsageError Given :=
  (matchArguments c false ⟨[], none⟩ arguments).map (·.1)

def probeCommand (g : Given) : Except UsageError Command :=
  match Given.value? g "target" with
  | none => .error .missingRequired
  | some target =>
    .ok (.probe
      { method := (Given.value? g "method").getD "GET"
        target
        headers := Given.values g "header"
        body := Given.value? g "body"
        config := Given.value? g "config"
        metrics := Given.has g "metrics" })

def helpOn : List String → UsageError
  | [] => .help none
  | name :: rest =>
    if mainSpec.subcommands.contains name && rest.isEmpty then .help (some name)
    else .unknownSubcommand

def parse (arguments : List String) : Except UsageError Invocation := do
  let (given, subcommand) ← matchArguments mainSpec false ⟨[], none⟩ arguments
  match subcommand with
  | some ("probe", rest) =>
    let inner ← matchAll probeSpec rest
    let command ← probeCommand inner
    return ⟨Given.has given "verbose" || Given.has inner "verbose", command⟩
  | some ("config", rest) =>
    let inner ← matchAll configSpec rest
    return ⟨Given.has given "verbose" || Given.has inner "verbose",
      .config (Given.value? inner "config")⟩
  | some (_, rest) => .error (helpOn rest)
  | none => .error (if given.isEmpty then .nothingGiven else .missingSubcommand)

end Cli
end PageDispatch
