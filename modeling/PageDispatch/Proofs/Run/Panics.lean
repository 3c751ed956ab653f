import PageDispatch.Proofs.Response.Grouping
import PageDispatch.Proofs.Run.Blame

/-!
This module contains what becomes of a panic of foreign code that a step calls: the panics of
constructors and of evaluations end in an answer for a failure, those of names end the job.
-/

namespace PageDispatch

/-- Whether the next step of a run calls a constructor or a unit that panics when it is at work. -/
inductive Run.Trips (settings : Settings) (run : Run) : Prop
  | constructing {spec : UnitSpec} {remnant : Remnant} {payload : PanicPayload}
    (h : run.remnant.next? = some (.spec spec, remnant))
    (hp : (settings.registry.instantiate [] spec run.context).1.result = .error payload)
  | evaluating {taken : Run} {u : HandlerUnit} {name : String} {payload : PanicPayload}
    (h : run.Takes settings u taken) (hname : u.name = .ok name)
    (hp : (u.evaluate taken.view).ending = .panicked payload)

/-- Whether the next step of a run asks a unit for its name that panics when it is asked. -/
def Run.FindsNameless (settings : Settings) (run : Run) : Prop :=
  ∃ u taken payload, run.Takes settings u taken ∧ u.name = .error payload

/-- What a step ends in that a panic escapes from: the run is given up, and nobody is told. -/
structure Machine.Loses (m : Machine) (run : Run) : Prop where
  ended : (m.turn (.step run)).2 = .escaped
  told : ∃ es, (∀ e ∈ es, e.isEffort = true) ∧
    (m.turn (.step run)).1.told run.owner.id? = m.told run.owner.id? ++ es
  abandons : m.work (.step run)
    = (((m.turn (.step run)).1.log (.escaped run.owner.id?)).complete run.owner
        (.abandoned (run.evaluated + 1)), true)

/-- What a step ends in that contains a panic: an answer for a failure, after a single report. -/
structure Machine.Contains (m : Machine) (run : Run) (a : Answer) (report : FailureReport) :
    Prop where
  ended : (m.turn (.step run)).2 = .ended (.answered a)
  kind : a.record.kind = .failure
  status : a.record.status = some .internalServerError
  response : a.response.status = .internalServerError
  told : ∃ es, (∀ e ∈ es, e.isEffort = true) ∧ (m.turn (.step run)).1.told run.owner.id?
    = m.told run.owner.id? ++ (es ++ [.reporting run.owner.id? report])
  record : report.Matches a.record
  /-- The worker goes on as after any other job. -/
  unharmed : (m.work (.step run)).2 = false

section Failing

variable {settings : Settings} {run : Run} {unit : String} {position : Option Nat}
  {failure : UnitFailure} {own : Accumulator}

theorem kind_failed : (run.failed settings unit position failure own).record.kind = .failure := rfl

theorem status_response_failed :
    (run.failed settings unit position failure own).record.status = some .internalServerError := by
  unfold Run.failed Run.failureAnswer Run.answer Run.record
  dsimp only
  rw [Accumulator.status_merge]
  rfl

theorem status_failed :
    (run.failed settings unit position failure own).response.status = .internalServerError := by
  unfold Run.failed Run.failureAnswer Run.answer Accumulator.toResponse
  dsimp only
  rw [Accumulator.status_merge]
  rfl

theorem Run.Trips.fails (h : run.Trips settings) :
    ∃ failure own, (Job.step run).Fails settings failure own := by
  cases h with
  | evaluating h hname hp => exact ⟨_, _, .panicked h hname hp⟩
  | @constructing spec remnant payload h hp =>
    have hmade : (run.past remnant).made settings spec
        = .error (.of ("constructor panicked: " ++ payload.message)) := by
      unfold Run.made
      rw [show (run.past remnant).context = run.context from rfl, hp]
    exact ⟨_, _, .uninstantiated h hmade⟩

end Failing

namespace Machine

variable {settings : Settings} {m : Machine} {run : Run}

/-- As long as the channel is open, a step does what was foretold. -/
theorem progress_of_open (hk : m.Knows run)
    (hopen : (m.turn (.step run)).1.isOpen run.channel = true) :
    (m.turn (.step run)).2 = ((Job.step run).forecast m.settings).progress := by
  obtain ⟨es, -, hcase⟩ := @keeps_turn m (.step run) hk
  cases hcase with
  | inl hkept => exact hkept.2
  | inr hclosed =>
    have hfalse := hclosed.2.1
    rw [show (Job.step run).run = run from rfl, hopen] at hfalse
    cases hfalse

theorem moves_turn (hk : m.Knows run) :
    ∃ f : Forecast, f.Moves run.owner.id? run.page run.evaluated ∧
      m.Does run (m.turn (.step run)) f :=
  ⟨_, @seeing_moves m.settings run.evaluated (.step run) run.page (.step rfl rfl) _,
    @does_turn m (.step run) hk⟩

theorem contains_of_trips (hk : m.Knows run)
    (hopen : (m.turn (.step run)).1.isOpen run.channel = true) (h : run.Trips m.settings) :
    ∃ a report, m.Contains run a report := by
  obtain ⟨failure, own, hfails⟩ := h.fails
  obtain ⟨base, unit, position, -, hforecast⟩ := Job.forecast_of_fails hfails
  have hended : (m.turn (.step run)).2
      = .ended (.answered (base.failed m.settings unit position failure own)) :=
    (progress_of_open hk hopen).trans hforecast
  obtain ⟨f, hmoves, hdoes⟩ := moves_turn hk
  have hprogress := hended.symm.trans hdoes.progress
  have hunharmed : (m.work (.step run)).2 = false := by
    unfold work
    dsimp only
    rw [hended]
    rfl
  cases hmoves with
  | goes hes hf hat =>
    subst hprogress
    cases hf
  | ends hes hf ha => exact absurd kind_failed (ha _ hprogress.symm)
  | @fails es report a after hes hreport hrecord ha =>
    injection hprogress with hprogress
    injection hprogress with hanswer
    rw [← hanswer] at hrecord
    exact ⟨_, report, {
      ended := hended
      kind := kind_failed
      status := status_response_failed
      response := status_failed
      told := ⟨es, hes.efforts, hdoes.told⟩
      record := hrecord
      unharmed := hunharmed }⟩

theorem loses_of_nameless (hk : m.Knows run)
    (hopen : (m.turn (.step run)).1.isOpen run.channel = true)
    (h : run.FindsNameless m.settings) : m.Loses run := by
  obtain ⟨u, taken, payload, htakes, hname⟩ := h
  have hended : (m.turn (.step run)).2 = .escaped :=
    (progress_of_open hk hopen).trans (Job.forecast_of_nameless htakes hname)
  obtain ⟨f, hmoves, hdoes⟩ := moves_turn hk
  have hprogress := hended.symm.trans hdoes.progress
  refine ⟨hended, ?_, ?_⟩
  . cases hmoves with
    | goes hes hf hat =>
      subst hprogress
      cases hf
    | ends hes hf ha => exact ⟨_, hes, hdoes.told⟩
    | fails hes hreport hrecord ha => cases hprogress
  . unfold work
    dsimp only
    rw [hended]
    rfl

/--
As long as its channel is open, a run whose constructor or unit panics at work is answered for, but
one whose unit panics when it is asked for its name is lost.
-/
theorem Reachable.panics_of_units {started : Machine} (h : Reachable settings m)
    (hstart : m.startJob? = some (.step run, started))
    (hopen : (started.turn (.step run)).1.isOpen run.channel = true) :
    (run.Trips settings → ∃ a report, started.Contains run a report) ∧
    (run.FindsNameless settings → started.Loses run) := by
  have ⟨hm, hsettings⟩ := h.sane
  have hk := (hm.startJob? hstart).knows (hm.fits_startJob? hstart)
  have heq : settings = started.settings :=
    hsettings.symm.trans (grows_startJob? hstart).settings.symm
  subst heq
  exact ⟨contains_of_trips hk hopen, loses_of_nameless hk hopen⟩

def tripping : List ChainElement :=
  [.unit ⟨.ok "Trip", fun _ => ⟨[], .empty, [], .panicked .other⟩⟩]

def nameless : List ChainElement := [.unit ⟨.error .other, fun _ => .decide .rejected⟩]

theorem contains_of_tripping :
    ∃ m run started a report, Reachable .plain m ∧ m.startJob? = some (.step run, started) ∧
      (started.turn (.step run)).1.isOpen run.channel = true ∧ started.Contains run a report := by
  have hreach := reachable_running .plain tripping 0
  obtain ⟨a, report, hcontains⟩ := (Reachable.panics_of_units hreach rfl rfl).1
    (.evaluating (.unit rfl) rfl rfl)
  exact ⟨_, _, _, a, report, hreach, rfl, rfl, hcontains⟩

theorem not_contains_of_nameless :
    ∃ m run started, Reachable .plain m ∧ m.startJob? = some (.step run, started) ∧
      (started.turn (.step run)).1.isOpen run.channel = true ∧ run.FindsNameless .plain ∧
        ∀ a report, ¬started.Contains run a report := by
  have hreach := reachable_running .plain nameless 0
  refine ⟨_, _, _, hreach, rfl, rfl, ⟨_, _, _, .unit rfl, rfl⟩, ?_⟩
  intro a report hcontains
  cases hcontains.ended

end Machine
end PageDispatch
