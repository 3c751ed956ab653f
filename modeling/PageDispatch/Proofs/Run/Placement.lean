import PageDispatch.Proofs.Run.Stance

/-!
This module contains what it changes for a run that its dispatch takes place elsewhere: nothing but
the places themselves, as long as the run may close its own channel here and there.
-/

namespace PageDispatch

/-- What two dispatches of one request with the same pages differ in. -/
structure Place where
  id : Nat
  nested : Bool
  channel : ChannelId
  outer : ChannelId
  started : Nat

/-- Whether the runs at two places both reach their own channel, or neither does. -/
def Place.Like (p p' : Place) : Prop := p'.outer = p'.channel ↔ p.outer = p.channel

variable (p : Place)

def Dispatch.placed (d : Dispatch) : Dispatch :=
  { d with
    id := p.id, nested := p.nested, channel := p.channel, outer := p.outer, started := p.started }

def Owner.placed : Owner → Owner
  | .caller => .caller
  | .dispatch d => .dispatch (d.placed p)

def Run.placed (run : Run) : Run :=
  { run with channel := p.channel, outer := p.outer, owner := run.owner.placed p }

def Suspension.placed (s : Suspension) : Suspension := { s with run := s.run.placed p }

def Job.placed : Job → Job
  | .step run => .step (run.placed p)
  | .resume s r => .resume (s.placed p) r

def Flight.placed : Flight → Flight
  | .queued job => .queued (job.placed p)
  | .parked s closes _ r => .parked (s.placed p) closes p.outer r

def Progress.placed : Progress → Progress
  | .continues run => .continues (run.placed p)
  | .suspended s plan => .suspended (s.placed p) plan
  | .ended result => .ended result
  | .escaped => .escaped

/-- An event without its place and without the time that it took to get there. -/
def Event.plain : Event → Event
  | received _ _ request => .received 0 0 request
  | sending _ _ r => .sending 0 0 r
  | withheld _ _ r => .withheld 0 0 r
  | building _ page => .building 0 page
  | rejected _ tried => .rejected 0 tried
  | instantiating _ spec => .instantiating none spec
  | evaluating _ position unit view => .evaluating none position unit view
  | reporting _ report => .reporting none report
  | escaped _ => .escaped none
  | finished _ _ summary => .finished 0 false { summary with latency := 0 }
  | note value => .note value
  | sendFailed channel message => .sendFailed channel message
  | closed channel => .closed channel
  | completed result => .completed result

variable {p} {p' : Place}

structure Forecast.Placed (p : Place) (f f' : Forecast) : Prop where
  events : f'.events.map Event.plain = f.events.map Event.plain
  progress : f'.progress = f.progress.placed p

structure Stance.Placed (p : Place) (t t' : Stance) : Prop where
  events : t'.events.map Event.plain = t.events.map Event.plain
  run : t'.run = t.run.placed p
  ruling : t'.ruling = t.ruling

theorem Owner.placed_placed (owner : Owner) : (owner.placed p).placed p' = owner.placed p' := by
  cases owner <;> rfl

theorem Run.placed_placed (run : Run) : (run.placed p).placed p' = run.placed p' := by
  unfold Run.placed
  rw [Owner.placed_placed]

theorem Suspension.placed_placed (s : Suspension) : (s.placed p).placed p' = s.placed p' := by
  unfold Suspension.placed
  rw [Run.placed_placed]

theorem Job.placed_placed (job : Job) : (job.placed p).placed p' = job.placed p' := by
  cases job with
  | step run => exact congrArg Job.step run.placed_placed
  | resume s r => exact congrArg (Job.resume · r) s.placed_placed

theorem Flight.placed_placed (f : Flight) : (f.placed p).placed p' = f.placed p' := by
  cases f with
  | queued job => exact congrArg Flight.queued job.placed_placed
  | parked s closes outer r => exact congrArg (Flight.parked · closes p'.outer r) s.placed_placed

theorem Job.run_placed (job : Job) : (job.placed p).run = job.run.placed p := by
  cases job <;> rfl

section

variable {settings : Settings} {run : Run}

theorem responding_placed (unit : String) (position : Nat) (status : Status)
    (message : Option ResponseMessage) (own : Accumulator) :
    (run.responding settings unit position status message own).Placed p
      ((run.placed p).responding settings unit position status message own) := by
  unfold Run.responding
  dsimp only
  split
  . exact ⟨rfl, rfl⟩
  . exact ⟨rfl, rfl⟩
  . split <;> exact ⟨rfl, rfl⟩

theorem applying_placed (unit : String) (position : Nat) (outcome : Outcome) (own : Accumulator) :
    (run.applying settings unit position outcome own).Placed p
      ((run.placed p).applying settings unit position outcome own) := by
  unfold Run.applying
  cases outcome with
  | rejected =>
    have hlocked : (run.placed p).locked = run.locked := rfl
    dsimp only
    rw [hlocked]
    split <;> exact ⟨rfl, rfl⟩
  | consumed objects locked => exact ⟨rfl, rfl⟩
  | respondWith status message => exact responding_placed _ _ _ _ _

/-- Only here it matters whether the run reaches its own channel. -/
theorem silenced_placed (h : p.outer = p.channel ↔ run.outer = run.channel) (outcome : Outcome) :
    (run.placed p).silenced settings outcome = run.silenced settings outcome := by
  unfold Run.silenced
  rw [decide_eq_decide.mpr (show (run.placed p).outer = (run.placed p).channel ↔ _ from h)]

theorem taking_placed (h : p.outer = p.channel ↔ run.outer = run.channel) (isOpen : Bool)
    (v : Ruling) :
    (run.taking settings isOpen v).Placed p ((run.placed p).taking settings isOpen v) := by
  cases v with
  | decides unit position outcome own =>
    unfold Run.taking
    dsimp only
    rw [silenced_placed h]
    split
    . exact applying_placed _ _ _ _
    . exact ⟨rfl, rfl⟩
  | fails unit position failure own => cases isOpen <;> exact ⟨rfl, rfl⟩
  | defers unit position own plan => exact ⟨rfl, rfl⟩
  | runsOut => exact ⟨rfl, rfl⟩
  | escapes => exact ⟨rfl, rfl⟩

theorem standing_placed (position : Nat) (u : HandlerUnit) :
    (run.standing position u).Placed p ((run.placed p).standing position u) := by
  unfold Run.standing
  split <;> exact ⟨rfl, rfl, rfl⟩

theorem facing_placed (position : Nat) (element : ChainElement) :
    (run.facing settings position element).Placed p
      ((run.placed p).facing settings position element) := by
  cases element with
  | unit u => exact standing_placed position u
  | spec spec =>
    have hmade : (run.placed p).made settings spec = run.made settings spec := rfl
    unfold Run.facing
    dsimp only
    rw [hmade]
    split
    . next u _ =>
      have hstanding := @standing_placed p run position u
      exact ⟨congrArg (_ :: ·) hstanding.events, hstanding.run, hstanding.ruling⟩
    . exact ⟨rfl, rfl, rfl⟩

theorem stance_placed : (run.stance settings).Placed p ((run.placed p).stance settings) := by
  have hnext : (run.placed p).remnant.next? = run.remnant.next? := rfl
  unfold Run.stance
  rw [hnext]
  split
  . exact ⟨rfl, rfl, rfl⟩
  . next remnant _ => exact @facing_placed p settings (run.past remnant) _ _

theorem job_stance_placed (job : Job) :
    (job.stance settings).Placed p ((job.placed p).stance settings) := by
  cases job with
  | step run => exact stance_placed
  | resume s r => exact ⟨rfl, rfl, rfl⟩

theorem seeing_placed {job : Job} (h : p.outer = p.channel ↔ job.run.outer = job.run.channel)
    (g : Glance) :
    (job.seeing settings g).Placed p ((job.placed p).seeing settings g) := by
  cases g with
  | unseen =>
    unfold Job.seeing Run.abandoning
    dsimp only
    rw [Job.run_placed]
    exact ⟨rfl, rfl⟩
  | seen isOpen =>
    have hstance := @job_stance_placed p settings job
    have hresembles := @Job.resembles_stance settings job
    have htaking := @taking_placed p settings (job.stance settings).run
      (by rw [hresembles.outer, hresembles.channel]; exact h) isOpen (job.stance settings).ruling
    unfold Job.seeing Stance.taken
    dsimp only
    rw [hstance.run, hstance.ruling]
    constructor
    case events => rw [List.map_append, List.map_append, hstance.events, htaking.events]
    case progress => exact htaking.progress

end
end PageDispatch
