import PageDispatch.Config
import PageDispatch.Numeral.FloatReader

/-!
This module contains the settings of logging.
-/

namespace PageDispatch

inductive LogFormat where
  | json
  | pretty
  deriving DecidableEq, Repr

inductive SamplingMode where
  | all
  | errorOnly
  | sampled
  deriving DecidableEq, Repr

structure LogConfig where
  level : String
  format : LogFormat
  mode : SamplingMode
  /-- The share of the events that are not severe to keep. -/
  rate : Binary64
  async : Bool
  targetFilter : Option String
  includeLocation : Bool
  deriving DecidableEq, Repr

namespace LogFormat

def name : LogFormat → String
  | json => "Json"
  | pretty => "Pretty"

/-- The format of a name in any letter case; JSON for all other names. -/
def parse (s : String) : LogFormat :=
  match Lowercase.lower s with
  | "pretty" => pretty
  | _ => json

end LogFormat

namespace SamplingMode

def name : SamplingMode → String
  | all => "All"
  | errorOnly => "ErrorOnly"
  | sampled => "Sampled"

/-- The mode of a name in any letter case; everything for all other names. -/
def parse (s : String) : SamplingMode :=
  match Lowercase.lower s with
  | "error-only" | "error_only" => errorOnly
  | "sampled" => sampled
  | _ => all

end SamplingMode

namespace LogConfig

def default : LogConfig where
  level := "info"
  format := .json
  mode := .all
  rate := .ofFloat 0.1
  async := true
  targetFilter := none
  includeLocation := false

def development : LogConfig where
  level := "debug"
  format := .pretty
  mode := .all
  rate := .ofFloat 1.0
  async := false
  targetFilter := none
  includeLocation := true

def parseBool : String → Option Bool
  | "true" => some true
  | "false" => some false
  | _ => none

def ofEnv (env : Environment) : LogConfig where
  level := (env "CHAINR_LOG_LEVEL").getD default.level
  format := ((env "CHAINR_LOG_FORMAT").map LogFormat.parse).getD default.format
  mode := ((env "CHAINR_LOG_SAMPLING").map SamplingMode.parse).getD default.mode
  rate :=
    EngineConfig.override env "CHAINR_LOG_SAMPLING_RATE"
      (fun s => (FloatReader.read? s).map Binary64.ofFloat) default.rate
  async := EngineConfig.override env "CHAINR_LOG_ASYNC" parseBool default.async
  targetFilter := env "CHAINR_LOG_TARGET_FILTER"
  includeLocation :=
    EngineConfig.override env "CHAINR_LOG_INCLUDE_LOCATION" parseBool default.includeLocation

end LogConfig
end PageDispatch
