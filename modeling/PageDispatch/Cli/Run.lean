import PageDispatch.Cli.Files
import PageDispatch.Cli.Probe

/-!
This module contains what the program prints and how it ends, given its arguments, its environment
and the files that it may read.
-/

namespace PageDispatch
namespace Cli

structure Output where
  code : UInt8
  stdout : String
  stderr : String
  deriving DecidableEq, Repr

def loadConfig (files : Files) (env : Environment) (path : Option String) :
    Except CauseChain EngineConfig :=
  match path with
  | none => .ok (EngineConfig.applyEnv env .default)
  | some path =>
    match files path with
    | .error e => .error ((CauseChain.of e.message).within ("failed to read config file " ++ path))
    | .ok document =>
      match EngineConfig.load? document env with
      | some config => .ok config
      | none =>
        .error ((CauseChain.of "malformed settings").within
          ("failed to parse config file " ++ path))

def indentLines (spaces text : String) : String :=
  String.intercalate ("\n" ++ spaces) (text.splitOn "\n")

def errorText (e : CauseChain) : String :=
  let causes :=
    match e.causes with
    | [] => ""
    | [cause] => "\n\nCaused by:\n    " ++ indentLines "    " cause
    | causes =>
      "\n\nCaused by:" ++ String.join (causes.zipIdx.map fun (cause, i) =>
        let number := toString i
        "\n" ++ String.ofList (List.replicate (5 - number.length) ' ') ++ number ++ ": "
          ++ indentLines "       " cause)
  "Error: " ++ e.message ++ causes ++ "\n"

def mainHelp : String :=
  "Chain dispatch engine probe\n\nUsage: chainrouter [OPTIONS] <COMMAND>\n\nCommands:\n" ++
  "  probe   Dispatch one request through the demo pages and print the response\n" ++
  "  config  Print the effective engine configuration as YAML\n" ++
  "  help    Print this message or the help of the given subcommand(s)\n\nOptions:\n" ++
  "  -v, --verbose  Log engine activity to stdout (pretty, debug level)\n" ++
  "  -h, --help     Print help\n"

def probeHelp : String :=
  "Dispatch one request through the demo pages and print the response\n\n" ++
  "Usage: chainrouter probe [OPTIONS] --target <TARGET>\n\nOptions:\n" ++
  "  -m, --method <METHOD>   HTTP method [default: GET]\n" ++
  "  -v, --verbose           Log engine activity to stdout (pretty, debug level)\n" ++
  "  -t, --target <TARGET>   Request target, path plus optional query\n" ++
  "  -H, --header <HEADERS>  Request header as \x60name:value\x60 (repeatable)\n" ++
  "  -b, --body <BODY>       Request body\n" ++
  "  -c, --config <CONFIG>   YAML configuration file; environment variables still override it\n" ++
  "      --metrics           Also print the dispatch summary and Prometheus metrics\n" ++
  "  -h, --help              Print help\n"

def configHelp : String :=
  "Print the effective engine configuration as YAML\n\n" ++
  "Usage: chainrouter config [OPTIONS]\n\nOptions:\n" ++
  "  -c, --config <CONFIG>  YAML configuration file; environment variables still override it\n" ++
  "  -v, --verbose          Log engine activity to stdout (pretty, debug level)\n" ++
  "  -h, --help             Print help\n"

def helpHelp : String :=
  "Print this message or the help of the given subcommand(s)\n\n" ++
  "Usage: chainrouter help [COMMAND]...\n\nArguments:\n" ++
  "  [COMMAND]...  Print help for the subcommand(s)\n"

def helpText : Option String → String
  | some "probe" => probeHelp
  | some "config" => configHelp
  | some "help" => helpHelp
  | _ => mainHelp

def usageOutput : UsageError → Output
  | .help subcommand => ⟨0, helpText subcommand, ""⟩
  | .nothingGiven => ⟨2, "", mainHelp⟩
  | _ => ⟨2, "", "error: the arguments make no command\n"⟩

def execute (files : Files) (env : Environment) (fresh : RequestId) (command : Command) :
    Except CauseChain String := do
  match command with
  | .probe args =>
    let config ← loadConfig files env args.config
    let report ← probe config fresh args
    return report.render args.metrics
  | .config path => return (← loadConfig files env path).toYaml

def run (files : Files) (env : Environment) (fresh : RequestId) (arguments : List String) :
    Output :=
  match parse arguments with
  | .error e => usageOutput e
  | .ok invocation =>
    match execute files env fresh invocation.command with
    | .ok text => ⟨0, text, ""⟩
    | .error e => ⟨1, "", errorText e⟩

end Cli
end PageDispatch
