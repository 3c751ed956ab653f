import PageDispatch.Cli.Arguments
import PageDispatch.Json.Basic
import PageDispatch.Logging.Config
import PageDispatch.Numeral.FloatText

/-!
This module contains pictures of settings as JSON.
-/

namespace PageDispatch

namespace EngineConfig

def toJson (c : EngineConfig) : Json :=
  .object [
    ("num_workers", .ofNat c.pool.workers.toNat),
    ("queue_bound", .ofNat c.pool.queueBound.toNat),
    ("backpressure_mode", .str c.pool.backpressure.name),
    ("stack_size", .ofNat c.pool.stackSize.toNat),
    ("expose_error_details", .bool c.exposeDetails),
    ("yaml", .str c.toYaml)]

end EngineConfig

namespace LogConfig

def toJson (c : LogConfig) : Json :=
  .object [
    ("log_level", .str c.level),
    ("format", .str c.format.name),
    ("sampling_mode", .str c.mode.name),
    ("sampling_rate", .str (FloatText.plain c.rate)),
    ("async_logging", .bool c.async),
    ("target_filter", .ofOption .str c.targetFilter),
    ("include_location", .bool c.includeLocation)]

end LogConfig

namespace Cli.ProbeArgs

def members (args : ProbeArgs) : List (String × Json) := [
  ("method", .str args.method),
  ("target", .str args.target),
  ("headers", .ofStrings args.headers),
  ("body", .ofOption .str args.body),
  ("config", .ofOption .str args.config),
  ("metrics", .bool args.metrics)]

end Cli.ProbeArgs

end PageDispatch
