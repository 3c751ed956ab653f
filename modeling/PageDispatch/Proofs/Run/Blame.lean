import PageDispatch.Proofs.Dispatch.Sequence

/-!
This module contains where a run is when it fails: how many units of its chain were evaluated by
then, and what the report of the failure says about it. The record of the answer says the same.
-/

namespace PageDispatch

/-- Whether a failure is one of a unit that was evaluated. -/
def UnitFailure.isOfWork : UnitFailure → Bool
  | error _ | panic _ | noOutcome | lockedRejection => true
  | instantiation _ | lockedExhaustion | pageBuild _ => false

/-- Whether a report blames the right place, if so many units of the chain were evaluated. -/
inductive FailureReport.Blames (page : String) (evaluated : Nat) : FailureReport → Prop
  | work {id : RequestId} {unit : String} {position : Nat} {failure : UnitFailure}
    (h : position + 1 = evaluated) (hf : failure.isOfWork = true) :
    Blames page evaluated ⟨id, page, unit, some position, failure⟩
  | unmade {id : RequestId} {unit : String} {e : CauseChain} :
    Blames page evaluated ⟨id, page, unit, some evaluated, .instantiation e⟩
  | exhausted {id : RequestId} {unit : String} :
    Blames page evaluated ⟨id, page, unit, none, .lockedExhaustion⟩

structure FailureReport.Matches (report : FailureReport) (record : OutcomeRecord) : Prop where
  page : report.page = record.page
  unit : report.unit = record.unit
  position : report.position = record.position

/-- Events by which units are tried, and the numbers of evaluated units before and after them. -/
structure Tallies (before : Nat) (es : List Event) (after : Nat) : Prop where
  efforts : ∀ e ∈ es, e.isEffort = true
  positions : List.range before ++ es.filterMap Event.position? = List.range after

/-- How many units were evaluated for a flight of a chain. -/
inductive Flight.At (page : String) (evaluated : Nat) : Flight → Prop
  | step {run : Run} (hpage : run.page = page) (h : run.evaluated = evaluated) :
    At page evaluated (.queued (.step run))
  | resume {s : Suspension} {r : Resolved} (hpage : s.run.page = page)
    (h : s.run.evaluated = evaluated) (hs : s.position + 1 = evaluated) :
    At page evaluated (.queued (.resume s r))
  | parked {s : Suspension} {closes : Bool} {outer : ChannelId} {r : Resolved}
    (hpage : s.run.page = page) (h : s.run.evaluated = evaluated)
    (hs : s.position + 1 = evaluated) : At page evaluated (.parked s closes outer r)

/--
What a job can make of its run: the run goes on, or ends without a failure, or ends in one that was
reported last of all.
-/
inductive Forecast.Moves (owner : Option Nat) (page : String) (evaluated : Nat) : Forecast → Prop
  | goes {es : List Event} {p : Progress} {f : Flight} {after : Nat}
    (hes : Tallies evaluated es after) (hf : p.flight? = some f) (hat : f.At page after) :
    Moves owner page evaluated ⟨es, p⟩
  | ends {es : List Event} {p : Progress} (hes : ∀ e ∈ es, e.isEffort = true)
    (hf : p.flight? = none) (ha : ∀ a, p = .ended (.answered a) → a.record.kind ≠ .failure) :
    Moves owner page evaluated ⟨es, p⟩
  | fails {es : List Event} {report : FailureReport} {a : Answer} {after : Nat}
    (hes : Tallies evaluated es after) (hreport : report.Blames page after)
    (hrecord : report.Matches a.record) (ha : a.record.kind = .failure) :
    Moves owner page evaluated ⟨es ++ [.reporting owner report], .ended (.answered a)⟩

/-- Whether a ruling about a run names the right place. -/
inductive Ruling.Fits (run : Run) (evaluated : Nat) : Ruling → Prop
  | decides {unit : String} {position : Nat} {outcome : Outcome} {own : Accumulator}
    (h : run.evaluated = evaluated) (hp : position + 1 = evaluated) :
    Fits run evaluated (.decides unit position outcome own)
  | fails {unit : String} {position : Option Nat} {failure : UnitFailure} {own : Accumulator}
    (h : (run.report unit position failure).Blames run.page evaluated) :
    Fits run evaluated (.fails unit position failure own)
  | defers {unit : String} {position : Nat} {own : Accumulator} {plan : DeferralPlan}
    (h : run.evaluated = evaluated) (hp : position + 1 = evaluated) :
    Fits run evaluated (.defers unit position own plan)
  | runsOut : Fits run evaluated .runsOut
  | escapes : Fits run evaluated .escapes

section Tallies

variable {before between after : Nat} {es es' : List Event}

theorem tallies_nil (n : Nat) : Tallies n [] n where
  efforts := List.forall_mem_nil _
  positions := List.append_nil _

theorem Tallies.append (h : Tallies before es between) (h' : Tallies between es' after) :
    Tallies before (es ++ es') after where
  efforts := List.forall_mem_append.mpr ⟨h.efforts, h'.efforts⟩
  positions := by
    rw [List.filterMap_append, ← List.append_assoc, h.positions]
    exact h'.positions

theorem tallies_instantiating (owner : Option Nat) (spec : UnitSpec) (n : Nat) :
    Tallies n [.instantiating owner spec] n where
  efforts := by simp [Event.isEffort]
  positions := by simp [Event.position?]

theorem tallies_evaluating (owner : Option Nat) (n : Nat) (unit : String) (view : UnitView) :
    Tallies n [.evaluating owner n unit view] (n + 1) where
  efforts := by simp [Event.isEffort]
  positions := by simp [Event.position?, List.range_succ]

end Tallies

namespace Forecast

variable {owner : Option Nat} {page : String} {before after : Nat} {f : Forecast}

theorem moves_of_not_answered {p : Progress} (hf : p.flight? = none)
    (hp : ∀ a, p ≠ .ended (.answered a)) : Moves owner page before ⟨[], p⟩ := by
  refine .ends (List.forall_mem_nil _) hf ?_
  intro a ha
  exact absurd ha (hp a)

theorem Moves.prepend {es : List Event} (h : f.Moves owner page after)
    (hes : Tallies before es after) : (f.prepend es).Moves owner page before := by
  unfold Forecast.prepend
  cases h with
  | goes hlater hf hat => exact .goes (hes.append hlater) hf hat
  | ends hlater hf ha => exact .ends (List.forall_mem_append.mpr ⟨hes.efforts, hlater⟩) hf ha
  | fails hlater hreport hrecord ha =>
    dsimp only
    rw [← List.append_assoc]
    exact .fails (hes.append hlater) hreport hrecord ha

end Forecast

section Moves

variable {settings : Settings} {run : Run} {evaluated : Nat}

theorem moves_failing {unit : String} {position : Option Nat} {failure : UnitFailure}
    (own : Accumulator) (h : (run.report unit position failure).Blames run.page evaluated) :
    (run.failing settings unit position failure own).Moves run.owner.id? run.page evaluated :=
  @Forecast.Moves.fails _ _ _ [] _ _ _ (tallies_nil evaluated) h ⟨rfl, rfl, rfl⟩ rfl

theorem moves_answering (own : Accumulator) (unit : String) (position : Option Nat) :
    Forecast.Moves run.owner.id? run.page evaluated
      ⟨[], .ended (.answered (run.answer own unit position .respondWith none))⟩ := by
  refine .ends (List.forall_mem_nil _) rfl ?_
  intro a ha
  cases ha
  exact nofun

theorem moves_responding {position : Nat} (h : position + 1 = evaluated) (unit : String)
    (status : Status) (message : Option ResponseMessage) (own : Accumulator) :
    (run.responding settings unit position status message own).Moves run.owner.id? run.page
      evaluated := by
  unfold Run.responding
  dsimp only
  split
  . exact moves_answering _ _ _
  . exact moves_answering _ _ _
  . split
    . exact moves_answering _ _ _
    . exact moves_failing _ (.work h rfl)
    . exact Forecast.moves_of_not_answered rfl (by simp)

theorem moves_applying {position : Nat} (h : run.evaluated = evaluated)
    (hp : position + 1 = evaluated) (unit : String) (outcome : Outcome) (own : Accumulator) :
    (run.applying settings unit position outcome own).Moves run.owner.id? run.page evaluated := by
  cases outcome with
  | rejected =>
    unfold Run.applying
    dsimp only
    split
    . exact moves_failing _ (.work hp rfl)
    . exact Forecast.moves_of_not_answered rfl (by simp)
  | consumed objects locked => exact .goes (tallies_nil evaluated) rfl (.step rfl h)
  | respondWith status message => exact moves_responding hp _ _ _ _

theorem Suspension.flight_at {s : Suspension} (h : s.run.evaluated = evaluated)
    (hs : s.position + 1 = evaluated) (plan : DeferralPlan) :
    (s.flight plan).At s.run.page evaluated := by
  unfold flight
  split
  . exact .parked rfl h hs
  . exact .resume rfl h hs

theorem moves_taking {v : Ruling} (h : v.Fits run evaluated) (isOpen : Bool) :
    (run.taking settings isOpen v).Moves run.owner.id? run.page evaluated := by
  have habandoning : run.abandoning.Moves run.owner.id? run.page evaluated :=
    Forecast.moves_of_not_answered rfl (by simp)
  cases h with
  | decides h hp =>
    unfold Run.taking
    dsimp only
    split
    . exact moves_applying h hp _ _ _
    . exact habandoning
  | fails h =>
    cases isOpen with
    | true => exact moves_failing _ h
    | false => exact habandoning
  | @defers unit position own plan h hp =>
    have hflight := @Suspension.flight_at evaluated ⟨run, unit, position, own⟩ h hp plan
    exact .goes (tallies_nil evaluated) rfl hflight
  | runsOut => exact Forecast.moves_of_not_answered rfl (by simp)
  | escapes => exact Forecast.moves_of_not_answered rfl (by simp)

end Moves

section Stances

variable {settings : Settings} {run : Run} {evaluated position : Nat}

theorem fits_ruling (h : run.evaluated = evaluated) (hp : position + 1 = evaluated) (unit : String)
    (own : Accumulator) (ending : UnitEnding) :
    (ending.ruling unit position own).Fits run evaluated := by
  cases ending with
  | decided outcome => exact .decides h hp
  | deferred plan => exact .defers h hp
  | failed e => exact .fails (.work hp rfl)
  | panicked payload => exact .fails (.work hp rfl)

theorem fits_ofResolved (h : run.evaluated = evaluated) (hp : position + 1 = evaluated)
    (unit : String) (own : Accumulator) (r : Resolved) :
    (Ruling.ofResolved unit position own r).Fits run evaluated := by
  match r with
  | .ok ⟨outcome, some more⟩ => exact .decides h hp
  | .ok ⟨outcome, none⟩ => exact .decides h hp
  | .error .abandoned => exact .fails (.work hp rfl)
  | .error (.failed e) => exact .fails (.work hp rfl)

/-- Whether a stance that is taken after so many evaluated units accounts for its own ones. -/
def Stance.Fits (evaluated : Nat) (t : Stance) : Prop :=
  ∃ after, Tallies evaluated t.events after ∧ t.ruling.Fits t.run after

theorem standing_fits (h : run.evaluated = position + 1) (u : HandlerUnit) :
    (run.standing position u).Fits position := by
  unfold Run.standing
  split
  . exact ⟨position, tallies_nil position, .escapes⟩
  . refine ⟨position + 1, tallies_evaluating _ _ _ _, ?_⟩
    exact @fits_ruling (run.edited _) _ _ h rfl _ _ _

theorem facing_fits (h : run.evaluated = position + 1) (element : ChainElement) :
    (run.facing settings position element).Fits position := by
  cases element with
  | unit u => exact standing_fits h u
  | spec spec =>
    unfold Run.facing
    dsimp only
    split
    . next u hmade =>
      obtain ⟨after, hes, hfits⟩ := standing_fits h u
      exact ⟨after, (tallies_instantiating _ _ _).append hes, hfits⟩
    . exact ⟨position, tallies_instantiating _ _ _, .fails .unmade⟩

theorem stance_fits (run : Run) : (run.stance settings).Fits run.evaluated := by
  unfold Run.stance
  split
  . refine ⟨run.evaluated, tallies_nil _, ?_⟩
    dsimp only
    split
    . exact .fails .exhausted
    . exact .runsOut
  . exact facing_fits rfl _

variable {job : Job} {page : String}

theorem job_stance_fits (h : (Flight.queued job).At page evaluated) :
    (job.stance settings).Fits evaluated := by
  cases h with
  | @step run hpage h =>
    rw [← h]
    exact stance_fits run
  | resume hpage h hs => exact ⟨evaluated, tallies_nil evaluated, fits_ofResolved h hs _ _ _⟩

theorem Flight.At.page_eq {f : Flight} (h : f.At page evaluated) : f.run.page = page := by
  cases h <;> assumption

/-- Whatever a job sees of its channel, a failure is reported once, last of all, with its place. -/
theorem seeing_moves (h : (Flight.queued job).At page evaluated) (g : Glance) :
    (job.seeing settings g).Moves job.run.owner.id? page evaluated := by
  cases g with
  | unseen => exact Forecast.moves_of_not_answered rfl (by simp)
  | seen isOpen =>
    have hresembles := @Job.resembles_stance settings job
    obtain ⟨after, hes, hfits⟩ := @job_stance_fits settings _ _ _ h
    have hmoves := @moves_taking settings _ _ _ hfits isOpen
    rw [hresembles.owner, hresembles.page, show job.run.page = page from h.page_eq] at hmoves
    exact hmoves.prepend hes

end Stances

end PageDispatch
