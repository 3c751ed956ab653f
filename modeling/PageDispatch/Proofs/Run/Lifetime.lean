import PageDispatch.Proofs.Run.Ledger
import PageDispatch.Proofs.Run.Stance
import PageDispatch.Proofs.Run.Trail

/-!
This module contains runs from their first job to their last one, across everything else that an
engine does. What is told about a run and how it ends is a function of the settings, of the run, and
of what its jobs see of the channel, one glance for each element.
-/

namespace PageDispatch

namespace Ruling

/-- Whether a unit was evaluated that lets its run go on, perhaps. -/
def IsDecision : Ruling → Prop
  | decides _ _ _ _ | defers _ _ _ _ => True
  | fails _ _ _ _ | runsOut | escapes => False

/-- What is to be done once a deferral is resolved. -/
def resolved : Ruling → Ruling
  | defers unit position own plan => .ofResolved unit position own plan.resolved
  | decides unit position outcome own => decides unit position outcome own
  | fails unit position failure own => fails unit position failure own
  | runsOut => runsOut
  | escapes => escapes

end Ruling

namespace Forecast

def prepend (es : List Event) (f : Forecast) : Forecast := { f with events := es ++ f.events }

@[simp]
theorem prepend_nil (f : Forecast) : f.prepend [] = f := rfl

theorem prepend_prepend (es es' : List Event) (f : Forecast) :
    (f.prepend es').prepend es = f.prepend (es ++ es') := by
  simp only [prepend, List.append_assoc]

end Forecast

namespace Progress

/-- The result that a run is completed with, if it does not go on. -/
def result? (evaluated : Nat) : Progress → Option ChainResult
  | ended result => some result
  | escaped => some (.abandoned evaluated)
  | continues _ | suspended _ _ => none

end Progress

namespace Run

variable (settings : Settings)

/-- What the next element makes of a run, a deferral and its resolution taken together. -/
def passing (run : Run) : Glance → Forecast
  | .unseen => run.abandoning
  | .seen isOpen =>
    let t := run.stance settings
    Stance.taken settings isOpen { t with ruling := t.ruling.resolved }

def story : List Glance → Run → Forecast
  | [], run => ⟨[], .continues run⟩
  | g :: gs, run =>
    match run.passing settings g with
    | ⟨es, .continues later⟩ => (story gs later).prepend es
    | other => other

end Run

section Story

variable {settings : Settings} {run later : Run} {es : List Event}

theorem story_singleton (g : Glance) : run.story settings [g] = run.passing settings g := by
  unfold Run.story
  split
  . next es later h =>
    rw [h, Run.story, Forecast.prepend, List.append_nil]
  . rfl

theorem story_concat {gs : List Glance} (g : Glance)
    (h : run.story settings gs = ⟨es, .continues later⟩) :
    run.story settings (gs ++ [g]) = (later.passing settings g).prepend es := by
  induction gs generalizing run es with
  | nil =>
    injection h with hes hrun
    injection hrun with hrun
    rw [List.nil_append, story_singleton, ← hes, hrun, Forecast.prepend_nil]
  | cons first rest ih =>
    rw [List.cons_append, Run.story]
    unfold Run.story at h
    split at h
    . next before next hpassing =>
      injection h with hes hprogress
      have hnext : next.story settings rest
          = ⟨(next.story settings rest).events, .continues later⟩ := by
        rw [← hprogress]
      rw [ih hnext, Forecast.prepend_prepend, ← hes]
    . next hother => exact absurd h (hother es later)

end Story

namespace Machine

/-- A run on its way: where it is, what its jobs saw of the channel, and what was told about it. -/
inductive Lives (settings : Settings) (first : Run) :
    Machine → Flight → List Glance → List Event → Prop
  | starts {m : Machine} (hm : m.Sane) (hsettings : m.settings = settings)
    (hf : .queued (.step first) ∈ m.inFlight) : Lives settings first m (.queued (.step first)) [] []
  | idles {m m' : Machine} {f : Flight} {gs : List Glance} {es : List Event}
    (h : Lives settings first m f gs es) (hstirs : m.Stirs m') (hf : f ∈ m'.inFlight) :
    Lives settings first m' f gs es
  | wakes {m m' : Machine} {s : Suspension} {closes : Bool} {outer : ChannelId} {r : Resolved}
    {gs : List Glance} {es : List Event}
    (h : Lives settings first m (.parked s closes outer r) gs es) (hstirs : m.Stirs m')
    (hf : .queued (.resume s r) ∈ m'.inFlight) :
    Lives settings first m' (.queued (.resume s r)) gs es
  | defers {m started : Machine} {job : Job} {s : Suspension} {plan : DeferralPlan}
    {gs : List Glance} {es es' : List Event} (h : Lives settings first m (.queued job) gs es)
    (hstart : m.startJob? = some (job, started))
    (hnext : (started.turn job).2 = .suspended s plan)
    (htold : (started.turn job).1.told job.run.owner.id?
      = started.told job.run.owner.id? ++ es') :
    Lives settings first ((started.work job).1.endJob (started.work job).2) (s.flight plan) gs
      (es ++ es')
  | goes {m started : Machine} {job : Job} {later : Run} {gs : List Glance} {es es' : List Event}
    (h : Lives settings first m (.queued job) gs es)
    (hstart : m.startJob? = some (job, started))
    (hnext : (started.turn job).2 = .continues later)
    (htold : (started.turn job).1.told job.run.owner.id?
      = started.told job.run.owner.id? ++ es') :
    Lives settings first ((started.work job).1.endJob (started.work job).2) (.queued (.step later))
      (gs ++ [started.glance job]) (es ++ es')

/-- How a run ends, and the result that it is completed with. -/
inductive Ends (settings : Settings) (first : Run) :
    List Glance → List Event → Progress → ChainResult → Prop
  | intro {m started : Machine} {job : Job} {result : ChainResult} {gs : List Glance}
    {es es' : List Event} (h : Lives settings first m (.queued job) gs es)
    (hstart : m.startJob? = some (job, started))
    (hresult : (started.turn job).2.result? job.evaluated = some result)
    (htold : (started.turn job).1.told job.run.owner.id?
      = started.told job.run.owner.id? ++ es') :
    Ends settings first (gs ++ [started.glance job]) (es ++ es') (started.turn job).2 result

end Machine

/-- Whether a run waits for the resolution of an element that it has begun with. -/
structure Suspension.Pauses (settings : Settings) (first : Run) (gs : List Glance) (s : Suspension)
    (r : Resolved) (es : List Event) : Prop where
  exists_run : ∃ (run : Run) (before after : List Event) (plan : DeferralPlan),
    es = before ++ after ∧ first.story settings gs = ⟨before, .continues run⟩ ∧
    run.stance settings = ⟨after, s.run, .defers s.unit s.position s.own plan⟩ ∧ plan.resolved = r

/-- What a flight has to do with the story of its run. -/
inductive Flight.Stands (settings : Settings) (first : Run) (gs : List Glance) :
    Flight → List Event → Prop
  | step {run : Run} {es : List Event} (h : first.story settings gs = ⟨es, .continues run⟩) :
    Stands settings first gs (.queued (.step run)) es
  | resume {s : Suspension} {r : Resolved} {es : List Event} (h : s.Pauses settings first gs r es) :
    Stands settings first gs (.queued (.resume s r)) es
  | parked {s : Suspension} {closes : Bool} {outer : ChannelId} {r : Resolved} {es : List Event}
    (h : s.Pauses settings first gs r es) : Stands settings first gs (.parked s closes outer r) es

section Evaluated

variable {settings : Settings} {run later : Run}

theorem evaluated_standing (position : Nat) (u : HandlerUnit) :
    (run.standing position u).run.evaluated = run.evaluated := by
  unfold Run.standing
  split <;> rfl

theorem evaluated_facing (position : Nat) (element : ChainElement) :
    (run.facing settings position element).run.evaluated = run.evaluated := by
  cases element with
  | unit u => exact evaluated_standing position u
  | spec spec =>
    unfold Run.facing
    dsimp only
    split
    . exact evaluated_standing position _
    . rfl

/-- The end of the chain is not counted, but it decides nothing. -/
theorem evaluated_stance (h : (run.stance settings).ruling.IsDecision) :
    (run.stance settings).run.evaluated = run.evaluated + 1 := by
  unfold Run.stance at h ⊢
  cases hnext : run.remnant.next? with
  | none =>
    rw [hnext] at h
    dsimp only at h
    split at h <;> exact h.elim
  | some next => exact evaluated_facing _ _

/-- A run goes on only if a unit lets it. -/
theorem eq_of_taking_continues {isOpen : Bool} {v : Ruling}
    (h : (run.taking settings isOpen v).progress = .continues later) :
    ∃ unit position objects locked own,
      v = .decides unit position (.consumed objects locked) own ∧
      later = run.consume own objects locked := by
  cases v with
  | decides unit position outcome own =>
    unfold Run.taking at h
    dsimp only at h
    split at h
    . obtain ⟨objects, locked, rfl, rfl⟩ := Run.eq_of_applying_continues h
      exact ⟨unit, position, objects, locked, own, rfl, rfl⟩
    . cases h
  | defers unit position own plan => cases h
  | fails unit position failure own => cases isOpen <;> cases h
  | runsOut => cases h
  | escapes => cases h

theorem isDecision_of_taking_continues {isOpen : Bool} {v : Ruling}
    (h : (run.taking settings isOpen v).progress = .continues later) :
    v.IsDecision ∧ later.evaluated = run.evaluated := by
  obtain ⟨unit, position, objects, locked, own, rfl, rfl⟩ := eq_of_taking_continues h
  exact ⟨trivial, rfl⟩

theorem Ruling.IsDecision.of_resolved {v : Ruling} (h : v.resolved.IsDecision) :
    v.IsDecision := by
  cases v with
  | defers unit position own plan => trivial
  | decides unit position outcome own => trivial
  | fails unit position failure own => exact h
  | runsOut => exact h
  | escapes => exact h

theorem evaluated_of_passing {g : Glance}
    (h : (run.passing settings g).progress = .continues later) :
    later.evaluated = run.evaluated + 1 := by
  cases g with
  | unseen => cases h
  | seen isOpen =>
    have ⟨hdecision, hlater⟩ := isDecision_of_taking_continues h
    rw [hlater]
    exact evaluated_stance hdecision.of_resolved

theorem evaluated_of_story {gs : List Glance} {es : List Event}
    (h : run.story settings gs = ⟨es, .continues later⟩) :
    later.evaluated = run.evaluated + gs.length := by
  induction gs generalizing run es with
  | nil =>
    injection h with _ hrun
    injection hrun with hrun
    rw [← hrun]
    rfl
  | cons g rest ih =>
    unfold Run.story at h
    split at h
    . next before next hpassing =>
      injection h with _ hprogress
      have hnext : next.evaluated = run.evaluated + 1 :=
        evaluated_of_passing (by rw [hpassing])
      have hrest := @ih next (next.story settings rest).events (by rw [← hprogress])
      rw [hrest, hnext, List.length_cons]
      omega
    . next hother => exact absurd h (hother es later)

end Evaluated

section Taking

variable {settings : Settings} {run : Run} {isOpen : Bool} {s : Suspension} {plan : DeferralPlan}

/-- Only a deferral suspends a run. -/
theorem eq_of_taking_suspended {v : Ruling}
    (h : (run.taking settings isOpen v).progress = .suspended s plan) :
    v = .defers s.unit s.position s.own plan ∧ run = s.run := by
  cases v with
  | defers unit position own deferral =>
    injection h with hs hplan
    rw [← hs, hplan]
    exact ⟨rfl, rfl⟩
  | decides unit position outcome own =>
    unfold Run.taking at h
    dsimp only at h
    split at h
    . exact absurd h Run.applying_ne_suspended
    . cases h
  | fails unit position failure own => cases isOpen <;> cases h
  | runsOut => cases h
  | escapes => cases h

theorem ofResolved_ne_defers {unit unit' : String} {position position' : Nat}
    {own own' : Accumulator} (r : Resolved) :
    Ruling.ofResolved unit position own r ≠ .defers unit' position' own' plan := by
  match r with
  | .ok ⟨outcome, some more⟩ => exact nofun
  | .ok ⟨outcome, none⟩ => exact nofun
  | .error .abandoned => exact nofun
  | .error (.failed e) => exact nofun

theorem resolved_ne_defers {unit : String} {position : Nat} {own : Accumulator} (v : Ruling) :
    v.resolved ≠ .defers unit position own plan := by
  cases v with
  | defers unit position own deferral => exact ofResolved_ne_defers deferral.resolved
  | decides unit position outcome own => exact nofun
  | fails unit position failure own => exact nofun
  | runsOut => exact nofun
  | escapes => exact nofun

theorem resolved_eq_self {v : Ruling}
    (h : ∀ unit position own plan, v ≠ .defers unit position own plan) : v.resolved = v := by
  cases v with
  | defers unit position own plan => exact absurd rfl (h unit position own plan)
  | decides unit position outcome own => rfl
  | fails unit position failure own => rfl
  | runsOut => rfl
  | escapes => rfl

/-- A job that does not suspend its run does what the story tells of the element. -/
theorem seeing_step_eq_passing {g : Glance}
    (h : ∀ s plan, ((Job.step run).seeing settings g).progress ≠ .suspended s plan) :
    (Job.step run).seeing settings g = run.passing settings g := by
  cases g with
  | unseen => rfl
  | seen isOpen =>
    have hruling : (run.stance settings).ruling.resolved = (run.stance settings).ruling := by
      apply resolved_eq_self
      intro unit position own plan heq
      apply h ⟨(run.stance settings).run, unit, position, own⟩ plan
      simp only [Job.seeing, Job.stance, Stance.taken, heq, Run.taking]
    unfold Run.passing
    dsimp only
    rw [hruling]
    rfl

/-- A step that suspends its run has begun with an element that is deferred. -/
theorem pauses_of_suspended {first : Run} {gs : List Glance} {es : List Event} {g : Glance}
    (h : first.story settings gs = ⟨es, .continues run⟩)
    (hs : ((Job.step run).seeing settings g).progress = .suspended s plan) :
    s.Pauses settings first gs plan.resolved
      (es ++ ((Job.step run).seeing settings g).events) := by
  cases g with
  | unseen => cases hs
  | seen isOpen =>
    obtain ⟨hruling, hrun⟩ := eq_of_taking_suspended hs
    refine ⟨run, es, (run.stance settings).events, plan, ?_, h, ?_, rfl⟩
    . simp only [Job.seeing, Job.stance, Stance.taken]
      simp only [Job.stance] at hruling
      rw [hruling]
      simp only [Run.taking, List.append_nil]
    . simp only [Job.stance] at hruling hrun
      rw [← hruling, ← hrun]

theorem story_of_resume {first : Run} {gs : List Glance} {es : List Event} {r : Resolved}
    (h : s.Pauses settings first gs r es) (isOpen : Bool) :
    first.story settings (gs ++ [.seen isOpen])
      =
    ((Job.resume s r).seeing settings (.seen isOpen)).prepend es := by
  obtain ⟨run, before, after, plan, rfl, hstory, hstance, rfl⟩ := h
  rw [story_concat _ hstory, ← Forecast.prepend_prepend]
  simp only [Run.passing, hstance, Ruling.resolved]
  rfl

end Taking

namespace Machine

variable {settings : Settings} {first : Run} {m m' started : Machine} {f : Flight} {job : Job}
  {gs : List Glance} {es es' : List Event}

theorem Stirs.settings_eq (h : m.Stirs m') (hm : m.Sane) : m'.settings = m.settings := by
  obtain hstep | ⟨id, wire, -, rfl⟩ := h.cases
  . exact (hstep.sane hm).2.settings
  . rfl

theorem stirs_of_startJob? (hstart : m.startJob? = some (job, started)) :
    m.Stirs ((started.work job).1.endJob (started.work job).2) := .work hstart

theorem Lives.sane (h : Lives settings first m f gs es) : m.Sane ∧ m.settings = settings := by
  induction h with
  | starts hm hsettings hf => exact ⟨hm, hsettings⟩
  | idles _ hstirs _ ih =>
    exact ⟨hstirs.sane ih.1, (hstirs.settings_eq ih.1).trans ih.2⟩
  | wakes _ hstirs _ ih =>
    exact ⟨hstirs.sane ih.1, (hstirs.settings_eq ih.1).trans ih.2⟩
  | defers _ hstart _ _ ih =>
    have hstirs := stirs_of_startJob? hstart
    exact ⟨hstirs.sane ih.1, (hstirs.settings_eq ih.1).trans ih.2⟩
  | goes _ hstart _ _ ih =>
    have hstirs := stirs_of_startJob? hstart
    exact ⟨hstirs.sane ih.1, (hstirs.settings_eq ih.1).trans ih.2⟩

/-- What a job that was taken does, as foretold. -/
theorem Lives.does (h : Lives settings first m f gs es)
    (hstart : m.startJob? = some (job, started)) :
    started.Does job.run (started.turn job) (job.seeing settings (started.glance job)) := by
  have ⟨hm, hsettings⟩ := h.sane
  have hknows := (hm.startJob? hstart).knows (hm.fits_startJob? hstart)
  have hdoes := does_turn hknows
  rw [(grows_startJob? hstart).settings, hsettings] at hdoes
  exact hdoes

theorem Does.events_eq {run : Run} {done : Machine × Progress} {told : Forecast}
    (h : m.Does run done told)
    (htold : done.1.told run.owner.id? = m.told run.owner.id? ++ es) : es = told.events :=
  List.append_cancel_left (htold.symm.trans h.told)

/-- The story of a run, one element further. -/
theorem story_of_stands (h : (Flight.queued job).Stands settings first gs es) {g : Glance}
    (hg : ∀ s r, job = .resume s r → g ≠ .unseen)
    (hp : ∀ s plan, (job.seeing settings g).progress ≠ .suspended s plan) :
    first.story settings (gs ++ [g]) = (job.seeing settings g).prepend es := by
  cases h with
  | step hstory => rw [story_concat g hstory, seeing_step_eq_passing hp]
  | @resume s r es hpauses =>
    cases g with
    | unseen => exact absurd rfl (hg s r rfl)
    | seen isOpen => exact story_of_resume hpauses isOpen

theorem glance_resume_ne_unseen (s : Suspension) (r : Resolved) (h : job = .resume s r) :
    m.glance job ≠ .unseen := by
  rw [h]
  exact nofun

theorem Lives.stands (h : Lives settings first m f gs es) : f.Stands settings first gs es := by
  induction h with
  | starts hm hsettings hf => exact .step rfl
  | idles _ _ _ ih => exact ih
  | wakes _ _ _ ih =>
    cases ih with
    | parked h => exact .resume h
  | @defers m started job s plan gs es es' hlives hstart hnext htold ih =>
    have hdoes := hlives.does hstart
    rw [hdoes.events_eq htold]
    rw [hdoes.progress] at hnext
    have hpauses : s.Pauses settings first gs plan.resolved
        (es ++ (job.seeing settings (started.glance job)).events) := by
      cases ih with
      | step hstory => exact pauses_of_suspended hstory hnext
      | resume hpauses =>
        exact absurd (eq_of_taking_suspended hnext).1 (ofResolved_ne_defers _)
    unfold Suspension.flight
    split
    . exact .parked hpauses
    . exact .resume hpauses
  | @goes m started job later gs es es' hlives hstart hnext htold ih =>
    have hdoes := hlives.does hstart
    rw [hdoes.events_eq htold]
    rw [hdoes.progress] at hnext
    have hgoes : ∀ s plan,
        (job.seeing settings (started.glance job)).progress ≠ .suspended s plan := by
      intro s plan hsuspended
      rw [hnext] at hsuspended
      cases hsuspended
    apply Flight.Stands.step
    rw [story_of_stands ih glance_resume_ne_unseen hgoes, Forecast.prepend, hnext]

/-- What a run does in an engine, whatever happens around it, is its story. -/
theorem Ends.story_eq {p : Progress} {result : ChainResult}
    (h : Ends settings first gs es p result) : first.story settings gs = ⟨es, p⟩ := by
  obtain ⟨hlives, hstart, hresult, htold⟩ := h
  have hdoes := hlives.does hstart
  rw [hdoes.progress] at hresult ⊢
  rw [story_of_stands hlives.stands glance_resume_ne_unseen, hdoes.events_eq htold]
  . rfl
  . intro s plan hsuspended
    rw [hsuspended] at hresult
    cases hresult

theorem evaluated_of_stands (h : (Flight.queued job).Stands settings first gs es) :
    job.evaluated = first.evaluated + gs.length + 1 := by
  cases h with
  | step hstory => exact congrArg (· + 1) (evaluated_of_story hstory)
  | resume hpauses =>
    obtain ⟨run, before, after, plan, -, hstory, hstance, -⟩ := hpauses
    have hrun := congrArg Stance.run hstance
    have hevaluated : (run.stance settings).run.evaluated = run.evaluated + 1 :=
      evaluated_stance (by rw [hstance]; trivial)
    rw [hrun, evaluated_of_story hstory] at hevaluated
    exact hevaluated

/-- A run that panics is abandoned after the elements that it was seen to begin with. -/
theorem Ends.result_eq {p : Progress} {result : ChainResult}
    (h : Ends settings first gs es p result) :
    p.result? (first.evaluated + gs.length) = some result := by
  obtain ⟨hlives, hstart, hresult, htold⟩ := h
  rw [evaluated_of_stands hlives.stands] at hresult
  rw [List.length_append, List.length_singleton, ← Nat.add_assoc, hresult]

theorem Lives.mem_inFlight (h : Lives settings first m f gs es) : f ∈ m.inFlight := by
  have hnext : ∀ {m started : Machine} {job : Job} {f : Flight}, m.Sane →
      m.startJob? = some (job, started) → (started.turn job).2.flight? = some f →
      f ∈ ((started.work job).1.endJob (started.work job).2).inFlight := by
    intro m started job f hm hstart hflight
    obtain ⟨fresh, -, heq⟩ := inFlight_work (hm.fits_startJob? hstart)
    have hmem : f ∈ (↑(some f).toList : Multiset Flight) :=
      Multiset.mem_coe.mpr (Option.mem_toList.mpr rfl)
    rw [inFlight_endJob, heq, hflight]
    exact Multiset.mem_add.mpr (.inl (Multiset.mem_add.mpr (.inr hmem)))
  cases h with
  | starts hm hsettings hf => exact hf
  | idles _ _ hf => exact hf
  | wakes _ _ hf => exact hf
  | defers h hstart hdone htold => exact hnext h.sane.1 hstart (by rw [hdone]; rfl)
  | goes h hstart hdone htold => exact hnext h.sane.1 hstart (by rw [hdone]; rfl)

/-- The job of a run makes it live on or ends it. -/
theorem Lives.work (h : Lives settings first m (.queued job) gs es)
    (hstart : m.startJob? = some (job, started)) :
    (∃ f gs' es',
      Lives settings first ((started.work job).1.endJob (started.work job).2) f gs' es') ∨
    ∃ gs' es' p result, Ends settings first gs' es' p result := by
  have htold := (h.does hstart).told
  cases hnext : (started.turn job).2 with
  | continues later => exact .inl ⟨_, _, _, .goes h hstart hnext htold⟩
  | suspended s plan => exact .inl ⟨_, _, _, .defers h hstart hnext htold⟩
  | ended result => exact .inr ⟨_, _, _, _, .intro h hstart (by rw [hnext]; rfl) htold⟩
  | escaped => exact .inr ⟨_, _, _, _, .intro h hstart (by rw [hnext]; rfl) htold⟩

/-- Whatever happens next, a run lives on or ends. -/
theorem Lives.next (h : Lives settings first m f gs es) (hstirs : m.Stirs m') :
    (∃ f' gs' es', Lives settings first m' f' gs' es') ∨
    ∃ gs' es' p result, Ends settings first gs' es' p result := by
  have hf := h.mem_inFlight
  have hm := h.sane.1
  cases hstirs with
  | @work job started hstart =>
    rw [inFlight_startJob? hstart] at hf
    cases Multiset.mem_add.mp hf with
    | inr hjob =>
      rw [Multiset.mem_singleton.mp hjob] at h
      exact h.work hstart
    | inl hother =>
      obtain ⟨fresh, -, heq⟩ := inFlight_work (hm.fits_startJob? hstart)
      refine .inl ⟨_, _, _, .idles h (.work hstart) ?_⟩
      rw [inFlight_endJob, heq]
      exact Multiset.mem_add.mpr (.inl (Multiset.mem_add.mpr (.inl hother)))
  | @wake before after timer s closes outer r now htimers halarm =>
    have hwake : m.Stirs ({ m with timers := before ++ after, clock := now }.ring timer.alarm) :=
      .wake now htimers halarm
    obtain ⟨rest, hbefore, hafter⟩ := inFlight_ring_of_registered now htimers halarm
    rw [hbefore] at hf
    cases Multiset.mem_add.mp hf with
    | inl hother =>
      refine .inl ⟨_, _, _, .idles h hwake ?_⟩
      rw [hafter]
      exact Multiset.mem_add.mpr (.inl hother)
    | inr hparked =>
      rw [Multiset.mem_singleton.mp hparked] at h
      refine .inl ⟨_, _, _, .wakes h hwake ?_⟩
      rw [hafter]
      exact Multiset.mem_add.mpr (.inr (Multiset.mem_singleton_self _))
  | @failPage channel page context e hc =>
    have hacts := @acts_runFailedPage m (fun _ => False) channel page context e
    refine .inl ⟨_, _, _, .idles h (.failPage page context e hc) ?_⟩
    rw [hacts.inFlight_of_nobody]
    exact hf
  | calm hcalm =>
    obtain ⟨fresh, -, heq⟩ := Ledger.exists_fresh_of_calm hcalm
    refine .inl ⟨_, _, _, .idles h (.calm hcalm) ?_⟩
    rw [heq]
    exact Multiset.mem_add.mpr (.inl hf)

end Machine
end PageDispatch
