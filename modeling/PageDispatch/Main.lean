import PageDispatch.Cli.Run

/-!
This module contains the program: it reads what the command needs, runs it and prints what it says.
-/

namespace PageDispatch

def settingVariables : List String := [
  "CHAINR_WORKERS", "CHAINR_QUEUE_BOUND", "CHAINR_BACKPRESSURE_MODE", "CHAINR_STACK_SIZE",
  "CHAINR_EXPOSE_ERRORS"]

def readEnvironment : IO Environment := do
  let values ← settingVariables.mapM fun name => return (name, (← IO.getEnv name))
  return fun name => (values.lookup name).join

def fileError : IO.Error → Cli.FileError
  | .noFileOrDirectory _ _ _ => .missing
  | .inappropriateType _ code _ => if code = 20 ∨ code = -20 then .notDirectory else .isDirectory
  | .invalidArgument _ code _ =>
    if code = 36 ∨ code = -36 then .longName else .other "Invalid argument (os error 22)"
  | .permissionDenied _ _ _ => .other "Permission denied (os error 13)"
  | e => .other (toString e)

def readFiles (arguments : List String) : IO Cli.Files := do
  let path :=
    match Cli.parse arguments with
    | .ok ⟨_, .probe args⟩ => args.config
    | .ok ⟨_, .config path⟩ => path
    | .error _ => none
  match path with
  | none => return fun _ => .error .missing
  | some path =>
    try
      let octets ← IO.FS.readBinFile path
      return fun _ =>
        match Utf8.decode? octets.toList with
        | some text => .ok text
        | none => .error .notText
    catch e => return fun _ => .error (fileError e)

def freshId : IO RequestId := do
  let time ← IO.monoMsNow
  let noise ← IO.getRandomBytes 10
  let low := noise.toList.foldl (fun acc b => acc * 256 + b.toNat) 0
  return ⟨BitVec.ofNat 128 ((time <<< 80) + low)⟩

end PageDispatch

open PageDispatch in
def main (arguments : List String) : IO UInt32 := do
  let output := Cli.run (← readFiles arguments) (← readEnvironment) (← freshId) arguments
  IO.print output.stdout
  IO.eprint output.stderr
  return output.code.toUInt32
