import PageDispatch.Engine.Dispatch

/-!
This module contains the jobs of an engine: evaluating the next unit of a run, and going on with a
run whose deferred unit was resolved.
-/

namespace PageDispatch

namespace Run

def view (run : Run) : UnitView := ⟨run.context, run.response, run.remnant.describe⟩

def past (run : Run) (remnant : Remnant) : Run :=
  { run with remnant, evaluated := run.evaluated + 1 }

def edited (run : Run) (edits : List RemnantEdit) : Run :=
  { run with remnant := edits.foldl .edit run.remnant }

end Run

namespace Machine

def perform (m : Machine) (outer : ChannelId) : UnitAction → Machine
  | .signal s => m.signal outer s
  | .registerPage page => m.registerPage page
  | .addDecorator decorator => m.addDecorator decorator
  | .dispatch request =>
    let (channel, m) := m.connect ⟨.new, none⟩
    m.dispatch request channel outer true

def performAll (m : Machine) (outer : ChannelId) (actions : List UnitAction) : Machine :=
  actions.foldl (fun m action => m.perform outer action) m

def judge (m : Machine) (run : Run) (unit : String) (position : Nat) (own : Accumulator) :
    UnitEnding → Machine × Progress
  | .decided outcome => m.apply run unit position outcome own
  | .deferred plan => (m, .suspended ⟨run, unit, position, own⟩ plan)
  | .failed e => m.failRun run unit (some position) (.error e) own
  | .panicked payload => m.failRun run unit (some position) (.panic payload.message) own

def evaluate (m : Machine) (run : Run) (position : Nat) (u : HandlerUnit) : Machine × Progress :=
  match u.name with
  | .error _ => (m, .escaped)
  | .ok name =>
    let work := u.evaluate run.view
    ((m.log (.evaluating run.owner.id? position name run.view)).performAll run.outer
      work.actions).judge (run.edited work.edits) name position work.response work.ending

def instantiate (m : Machine) (run : Run) (spec : UnitSpec) :
    Machine × Except CauseChain HandlerUnit :=
  let (made, patterns) := m.settings.registry.instantiate m.patterns spec run.context
  let m := { m with patterns }.log (.instantiating run.owner.id? spec)
  match m.call run.outer made with
  | (m, .ok result) => (m, result)
  | (m, .error payload) => (m, .error (.of ("constructor panicked: " ++ payload.message)))

def process (m : Machine) (run : Run) (position : Nat) : ChainElement → Machine × Progress
  | .unit u => m.evaluate run position u
  | .spec spec =>
    match m.instantiate run spec with
    | (m, .ok u) => m.evaluate run position u
    | (m, .error e) => m.failRun run spec.describe (some position) (.instantiation e) .empty

def step (m : Machine) (run : Run) : Machine × Progress :=
  if m.isOpen run.channel then
    match run.remnant.next? with
    | none => m.exhausted run
    | some (element, remnant) => m.process (run.past remnant) run.evaluated element
  else (m, .ended (.abandoned run.evaluated))

def resolve (m : Machine) (slot : Slot Suspension) (r : Resolved) : Machine × Slot Suspension :=
  match slot.resolve r with
  | (slot, some (s, r)) => (m.submit (.resume s r), slot)
  | (slot, none) => (m, slot)

def suspend (m : Machine) (s : Suspension) (plan : DeferralPlan) : Machine :=
  let outer := s.run.outer
  match plan.after with
  | some after =>
    match Slot.waiting.onResolve s with
    | (slot, some (s, r)) =>
      (m.submit (.resume s r)).schedule after (.resolve slot plan.closes outer plan.resolved)
    | (slot, none) => m.schedule after (.resolve slot plan.closes outer plan.resolved)
  | none =>
    let m := if plan.closes then m.close outer else m
    let (m, slot) := m.resolve .waiting plan.resolved
    match slot.onResolve s with
    | (_, some (s, r)) => m.submit (.resume s r)
    | (_, none) => m

/-- Goes on from where a run stands; says whether the job panicked. -/
def proceed (m : Machine) (owner : Owner) (evaluated : Nat) : Progress → Machine × Bool
  | .continues run => (m.submit (.step run), false)
  | .suspended s plan => (m.suspend s plan, false)
  | .ended result => (m.complete owner result, false)
  | .escaped => ((m.log (.escaped owner.id?)).complete owner (.abandoned evaluated), true)

def turn (m : Machine) : Job → Machine × Progress
  | .step run => m.step run
  | .resume s r => m.resume s r

def work (m : Machine) (job : Job) : Machine × Bool :=
  let (m, progress) := m.turn job
  m.proceed job.run.owner job.evaluated progress

def startJob? (m : Machine) : Option (Job × Machine) :=
  m.pool.start?.map fun (job, pool) => (job, { m with pool })

def endJob (m : Machine) (panicked : Bool) : Machine :=
  { m with pool := m.pool.finish panicked }

def runJob? (m : Machine) : Option Machine :=
  m.startJob?.map fun (job, m) =>
    let (m, panicked) := m.work job
    m.endJob panicked

end Machine
end PageDispatch
