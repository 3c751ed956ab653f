import PageDispatch.Cli.Arguments
import PageDispatch.Config
import PageDispatch.Demo
import PageDispatch.Engine.Journal
import PageDispatch.Snapshot.Engine

/-!
This module contains the probe: it sends one request through the demonstration pages and reports
what came of it.
-/

namespace PageDispatch

namespace Cli

def parseHeader (raw : String) : Except CauseChain (String × String) :=
  let cs := raw.toList
  match cs.dropWhile (· ≠ ':') with
  | [] => .error (.of ("header " ++ Quoted.quote raw ++ " must look like name:value"))
  | _ :: value =>
    let name := Blank.trimChars (cs.takeWhile (· ≠ ':'))
    if name.isEmpty then .error (.of ("header " ++ Quoted.quote raw ++ " has an empty name"))
    else .ok (String.ofList name, String.ofList (Blank.trimChars value))

def buildRequest (fresh : RequestId) (args : ProbeArgs) : Except CauseChain Request := do
  let method ← Constructor.readMethod args.method
  let headers ← args.headers.mapM parseHeader
  let request := headers.foldl (fun r (name, value) => r.withHeader name value)
    (Request.new fresh method args.target)
  return match args.body with
    | some body => request.withBody (Utf8.encode body)
    | none => request

structure ProbeReport where
  summary : DispatchSummary
  response : Option SentResponse
  metrics : String

def demoMachine (config : EngineConfig) : Machine :=
  .new
    { registry := Demo.registry
      codec := .json false
      hook := .silent
      fallback := .default (.ofSeconds 1)
      exposeDetails := config.exposeDetails
      pool := config.pool }
    Demo.pages []

def probe (config : EngineConfig) (fresh : RequestId) (args : ProbeArgs) :
    Except CauseChain ProbeReport := do
  let request ← buildRequest fresh args
  let (channel, m) := (demoMachine config).connect ⟨.new, none⟩
  let m := (m.dispatch request channel channel false).settleAll
  let summary := (m.summary? 0).getD ⟨request.id, .abandoned, none, none, 0, 0⟩
  return {
    summary
    response := if summary.disposition = .abandoned then none else (m.sent channel).head?
    metrics := m.metrics.render m.pool.metrics }

namespace ProbeReport

def valueText (v : HeaderValue) : String :=
  match v.toText with
  | .ok text => text
  | .error _ => "<binary>"

def responseText (r : SentResponse) : String :=
  let head := "HTTP/1.1 " ++ toString r.status.code ++ " " ++ r.status.phrase?.getD "" ++ "\n"
  let headers := r.headers.entries.map fun (name, value) =>
    name.text ++ ": " ++ valueText value ++ "\n"
  let text := head ++ String.join headers ++ "\n" ++ Utf8.decodeLossy r.body
  if text.endsWith "\n" then text else text ++ "\n"

def render (report : ProbeReport) (withMetrics : Bool) : String :=
  let response :=
    match report.response with
    | some r => responseText r
    | none => "<no response sent>\n"
  if withMetrics then
    response ++ "\n" ++ report.summary.toJson.pretty "" ++ "\n\n" ++ report.metrics
  else response

end ProbeReport
end Cli
end PageDispatch
