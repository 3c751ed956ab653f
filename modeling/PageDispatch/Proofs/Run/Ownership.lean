import PageDispatch.Proofs.Run.Forecast

/-!
This module contains the verification that a run does not depend on who waits for its end, but for
the number of the dispatch that its events tell.
-/

namespace PageDispatch

def Run.ownedBy (run : Run) (owner : Owner) : Run := { run with owner }

def Suspension.ownedBy (s : Suspension) (owner : Owner) : Suspension :=
  { s with run := s.run.ownedBy owner }

def Job.ownedBy (owner : Owner) : Job → Job
  | step run => step (run.ownedBy owner)
  | resume s r => resume (s.ownedBy owner) r

def Flight.ownedBy (owner : Owner) : Flight → Flight
  | queued job => queued (job.ownedBy owner)
  | parked s closes outer r => parked (s.ownedBy owner) closes outer r

def Progress.ownedBy (owner : Owner) : Progress → Progress
  | continues run => continues (run.ownedBy owner)
  | suspended s plan => suspended (s.ownedBy owner) plan
  | ended result => ended result
  | escaped => escaped

def Forecast.ownedBy (owner : Owner) (f : Forecast) : Forecast :=
  { f with progress := f.progress.ownedBy owner }

theorem locked_ownedBy (run : Run) (owner : Owner) : (run.ownedBy owner).locked = run.locked := rfl

theorem view_ownedBy (run : Run) (owner : Owner) : (run.ownedBy owner).view = run.view := rfl

theorem edited_ownedBy (run : Run) (owner : Owner) (edits : List RemnantEdit) :
    (run.ownedBy owner).edited edits = (run.edited edits).ownedBy owner := rfl

theorem past_ownedBy (run : Run) (owner : Owner) (remnant : Remnant) :
    (run.ownedBy owner).past remnant = (run.past remnant).ownedBy owner := rfl

theorem remnant_ownedBy (run : Run) (owner : Owner) :
    (run.ownedBy owner).remnant = run.remnant := rfl

theorem made_ownedBy (settings : Settings) (run : Run) (owner : Owner) (spec : UnitSpec) :
    (run.ownedBy owner).made settings spec = run.made settings spec := rfl

@[simp]
theorem Job.run_ownedBy (job : Job) (owner : Owner) :
    (job.ownedBy owner).run = job.run.ownedBy owner := by
  cases job with
  | step run => rfl
  | resume s r => rfl

@[simp]
theorem Flight.run_ownedBy (f : Flight) (owner : Owner) :
    (f.ownedBy owner).run = f.run.ownedBy owner := by
  cases f with
  | queued job => simp [ownedBy, run]
  | parked s closes outer r => rfl

section

variable {settings : Settings} {run : Run} {owner : Owner}

theorem failing_ownedBy (h : owner.id? = run.owner.id?) (unit : String) (position : Option Nat)
    (failure : UnitFailure) (own : Accumulator) :
    (run.ownedBy owner).failing settings unit position failure own
      =
    (run.failing settings unit position failure own).ownedBy owner := by
  unfold Run.failing Run.ownedBy
  rw [h]
  rfl

theorem responding_ownedBy (h : owner.id? = run.owner.id?) (unit : String) (position : Nat)
    (status : Status) (message : Option ResponseMessage) (own : Accumulator) :
    (run.ownedBy owner).responding settings unit position status message own
      =
    (run.responding settings unit position status message own).ownedBy owner := by
  unfold Run.responding
  dsimp only
  split
  . rfl
  . rfl
  . split
    . rfl
    . apply failing_ownedBy h
    . rfl

theorem applying_ownedBy (h : owner.id? = run.owner.id?) (unit : String) (position : Nat)
    (outcome : Outcome) (own : Accumulator) :
    (run.ownedBy owner).applying settings unit position outcome own
      =
    (run.applying settings unit position outcome own).ownedBy owner := by
  cases outcome with
  | rejected =>
    unfold Run.applying
    dsimp only
    rw [locked_ownedBy]
    cases run.locked with
    | true => apply failing_ownedBy h
    | false => rfl
  | consumed objects locked => rfl
  | respondWith status message => apply responding_ownedBy h

theorem exhausting_ownedBy (h : owner.id? = run.owner.id?) :
    (run.ownedBy owner).exhausting settings = (run.exhausting settings).ownedBy owner := by
  unfold Run.exhausting
  rw [locked_ownedBy]
  cases run.locked with
  | true => apply failing_ownedBy h
  | false => rfl

theorem judging_ownedBy (h : owner.id? = run.owner.id?) (unit : String) (position : Nat)
    (own : Accumulator) (ending : UnitEnding) :
    (run.ownedBy owner).judging settings unit position own ending
      =
    (run.judging settings unit position own ending).ownedBy owner := by
  cases ending with
  | decided outcome => apply applying_ownedBy h
  | deferred plan => rfl
  | failed e => apply failing_ownedBy h
  | panicked payload => apply failing_ownedBy h

theorem evaluating_ownedBy (h : owner.id? = run.owner.id?) (position : Nat) (u : HandlerUnit) :
    (run.ownedBy owner).evaluating settings position u
      =
    (run.evaluating settings position u).ownedBy owner := by
  unfold Run.evaluating
  cases u.name with
  | error payload => rfl
  | ok name =>
    dsimp only
    rw [view_ownedBy]
    rw [edited_ownedBy]
    rw [judging_ownedBy]
    . unfold Run.ownedBy
      rw [h]
      rfl
    . assumption

theorem processing_ownedBy (h : owner.id? = run.owner.id?) (position : Nat)
    (element : ChainElement) :
    (run.ownedBy owner).processing settings position element
      =
    (run.processing settings position element).ownedBy owner := by
  cases element with
  | unit u => apply evaluating_ownedBy h
  | spec spec =>
    unfold Run.processing
    dsimp only
    rw [made_ownedBy]
    cases run.made settings spec with
    | ok u =>
      dsimp only
      rw [evaluating_ownedBy h]
      unfold Run.ownedBy
      rw [h]
      rfl
    | error e =>
      dsimp only
      rw [failing_ownedBy h]
      unfold Run.ownedBy
      rw [h]
      rfl

theorem stepping_ownedBy (h : owner.id? = run.owner.id?) :
    (run.ownedBy owner).stepping settings = (run.stepping settings).ownedBy owner := by
  unfold Run.stepping
  rw [remnant_ownedBy]
  cases run.remnant.next? with
  | none => apply exhausting_ownedBy h
  | some next =>
    dsimp only
    rw [past_ownedBy]
    apply processing_ownedBy
    assumption

end

theorem resuming_ownedBy {settings : Settings} {s : Suspension} {owner : Owner}
    (h : owner.id? = s.run.owner.id?) (r : Resolved) :
    (s.ownedBy owner).resuming settings r = (s.resuming settings r).ownedBy owner := by
  unfold Suspension.resuming
  split
  . apply applying_ownedBy h
  . apply failing_ownedBy h
  . apply failing_ownedBy h

theorem forecast_ownedBy {settings : Settings} {job : Job} {owner : Owner}
    (h : owner.id? = job.run.owner.id?) :
    (job.ownedBy owner).forecast settings = (job.forecast settings).ownedBy owner := by
  cases job with
  | step run => apply stepping_ownedBy h
  | resume s r => apply resuming_ownedBy h

end PageDispatch
