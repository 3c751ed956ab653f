import PageDispatch.Proofs.Machine.Execution

/-!
This module contains the history of runs: which units decided what, in the order in which they were
evaluated, and what each of them wrote. Every run that waits in an engine has such a history.
-/

namespace PageDispatch

variable {settings : Settings}

inductive Run.Takes (settings : Settings) (run : Run) : HandlerUnit → Run → Prop
  | unit {u : HandlerUnit} {remnant : Remnant} (h : run.remnant.next? = some (.unit u, remnant)) :
    Takes settings run u (run.past remnant)
  | spec {spec : UnitSpec} {u : HandlerUnit} {remnant : Remnant}
    (h : run.remnant.next? = some (.spec spec, remnant))
    (hmade : (run.past remnant).made settings spec = .ok u) :
    Takes settings run u (run.past remnant)

/-- Whether a run comes to a unit that defers its decision, and what is kept of it until then. -/
inductive Run.Defers (settings : Settings) (run : Run) : Suspension → DeferralPlan → Prop
  | intro {u : HandlerUnit} {taken : Run} {name : String} {plan : DeferralPlan}
    (h : run.Takes settings u taken) (hname : u.name = .ok name)
    (hend : (u.evaluate taken.view).ending = .deferred plan) :
    Defers settings run
      { run := taken.edited (u.evaluate taken.view).edits
        unit := name
        position := run.evaluated
        own := (u.evaluate taken.view).response } plan

namespace Job

/--
The outcome that a job applies, the run to which it is applied, and the writings that come with it:
those of a unit that decided at once, or those of a deferred unit with its resolution's response
laid over them.
-/
inductive Applies (settings : Settings) : Job → Run → Outcome → Accumulator → Prop
  | decided {run taken : Run} {u : HandlerUnit} {name : String} {outcome : Outcome}
    (h : run.Takes settings u taken) (hname : u.name = .ok name)
    (hend : (u.evaluate taken.view).ending = .decided outcome) :
    Applies settings (.step run) (taken.edited (u.evaluate taken.view).edits) outcome
      (u.evaluate taken.view).response
  | resolved {s : Suspension} {resolution : Resolution} :
    Applies settings (.resume s (.ok resolution)) s.run resolution.outcome (s.merged resolution)

inductive Fails (settings : Settings) : Job → UnitFailure → Accumulator → Prop
  | failed {run taken : Run} {u : HandlerUnit} {name : String} {e : CauseChain}
    (h : run.Takes settings u taken) (hname : u.name = .ok name)
    (hend : (u.evaluate taken.view).ending = .failed e) :
    Fails settings (.step run) (.error e) (u.evaluate taken.view).response
  | panicked {run taken : Run} {u : HandlerUnit} {name : String} {payload : PanicPayload}
    (h : run.Takes settings u taken) (hname : u.name = .ok name)
    (hend : (u.evaluate taken.view).ending = .panicked payload) :
    Fails settings (.step run) (.panic payload.message) (u.evaluate taken.view).response
  | uninstantiated {run : Run} {spec : UnitSpec} {remnant : Remnant} {e : CauseChain}
    (h : run.remnant.next? = some (.spec spec, remnant))
    (hmade : (run.past remnant).made settings spec = .error e) :
    Fails settings (.step run) (.instantiation e) .empty
  | exhausted {run : Run} (h : run.remnant.next? = none) (hlocked : run.locked = true) :
    Fails settings (.step run) .lockedExhaustion .empty
  | dropped {s : Suspension} : Fails settings (.resume s (.error .abandoned)) .noOutcome s.own
  | refused {s : Suspension} {e : CauseChain} :
    Fails settings (.resume s (.error (.failed e))) (.error e) s.own

/-- The failure that a job ends its run with, and what the unit that failed has written by then. -/
inductive FailsWith (settings : Settings) (job : Job) : UnitFailure → Accumulator → Prop
  | fails {f : UnitFailure} {own : Accumulator} (h : job.Fails settings f own) :
    FailsWith settings job f own
  | refuses {base : Run} {own : Accumulator} (h : job.Applies settings base .rejected own)
    (hlocked : base.locked = true) : FailsWith settings job .lockedRejection own
  | encodes {base : Run} {status : Status} {value : Json} {own : Accumulator} {e : CauseChain}
    (h : job.Applies settings base (.respondWith status (some (.structured value))) own)
    (hcodec : (settings.codec value).result = .ok (.error e)) :
    FailsWith settings job (.error e) (own.setStatus status)

/-- What a job may come to in an engine with some settings, whatever else the engine works on. -/
def ComesTo (settings : Settings) (job : Job) (p : Progress) : Prop :=
  ∃ m : Machine, m.settings = settings ∧ m.Sane ∧ m.Fits job.run ∧ (m.turn job).2 = p

theorem comesTo_cases {job : Job} {p : Progress} (h : job.ComesTo settings p) :
    p = (job.forecast settings).progress ∨ ∃ evaluated, p = .ended (.abandoned evaluated) := by
  obtain ⟨m, hsettings, hsane, hfit, hturn⟩ := h
  obtain ⟨es, -, hcase⟩ := Machine.keeps_turn (hsane.knows hfit)
  rw [hsettings, hturn] at hcase
  cases hcase with
  | inl hkept => exact .inl hkept.2
  | inr hclosed => exact .inr hclosed.2.2

theorem comesTo_eq {job : Job} {p : Progress} (h : job.ComesTo settings p)
    (hp : ∀ evaluated, p ≠ .ended (.abandoned evaluated)) :
    (job.forecast settings).progress = p := by
  cases comesTo_cases h with
  | inl heq => exact heq.symm
  | inr hclosed =>
    obtain ⟨evaluated, heq⟩ := hclosed
    exact absurd heq (hp evaluated)

theorem resembles_of_takes {run taken : Run} {u : HandlerUnit} (h : run.Takes settings u taken) :
    run.Resembles taken := by
  cases h with
  | unit h => exact run.resembles_past _
  | spec h hmade => exact run.resembles_past _

theorem Applies.resembles {job : Job} {base : Run} {outcome : Outcome} {own : Accumulator}
    (h : job.Applies settings base outcome own) : job.run.Resembles base := by
  cases h with
  | decided h hname hend => exact (resembles_of_takes h).trans (Run.resembles_edited _ _)
  | resolved => exact .refl _

theorem stepping_of_takes {run taken : Run} {u : HandlerUnit} (h : run.Takes settings u taken) :
    (run.stepping settings).progress = (taken.evaluating settings run.evaluated u).progress := by
  cases h with
  | unit h =>
    unfold Run.stepping
    rw [h]
    rfl
  | spec h hmade =>
    unfold Run.stepping
    rw [h]
    dsimp only [Run.processing]
    rw [hmade]
    rfl

theorem evaluating_of_name {run : Run} {u : HandlerUnit} {position : Nat} {name : String}
    (h : u.name = .ok name) : (run.evaluating settings position u).progress
      =
    ((run.edited (u.evaluate run.view).edits).judging settings name position
      (u.evaluate run.view).response (u.evaluate run.view).ending).progress := by
  unfold Run.evaluating
  rw [h]
  rfl

theorem forecast_of_applies {job : Job} {base : Run} {outcome : Outcome} {own : Accumulator}
    (h : job.Applies settings base outcome own) :
    ∃ unit position, (job.forecast settings).progress
      = (base.applying settings unit position outcome own).progress := by
  cases h with
  | @decided run taken u name outcome h hname hend =>
    refine ⟨name, run.evaluated, ?_⟩
    unfold forecast
    rw [stepping_of_takes h, evaluating_of_name hname, hend]
    rfl
  | @resolved s resolution => exact ⟨s.unit, s.position, rfl⟩

theorem forecast_of_fails {job : Job} {f : UnitFailure} {own : Accumulator}
    (h : job.Fails settings f own) :
    ∃ base unit position, job.run.Resembles base ∧
      (job.forecast settings).progress
        = (Run.failing settings base unit position f own).progress := by
  cases h with
  | @failed run taken u name e h hname hend =>
    refine ⟨taken.edited (u.evaluate taken.view).edits, name, some run.evaluated,
      (resembles_of_takes h).trans (Run.resembles_edited _ _), ?_⟩
    unfold forecast
    rw [stepping_of_takes h, evaluating_of_name hname, hend]
    rfl
  | @panicked run taken u name payload h hname hend =>
    refine ⟨taken.edited (u.evaluate taken.view).edits, name, some run.evaluated,
      (resembles_of_takes h).trans (Run.resembles_edited _ _), ?_⟩
    unfold forecast
    rw [stepping_of_takes h, evaluating_of_name hname, hend]
    rfl
  | @uninstantiated run spec remnant e h hmade =>
    refine ⟨run.past remnant, spec.describe, some run.evaluated, run.resembles_past remnant, ?_⟩
    dsimp only [forecast, Run.stepping]
    rw [h]
    dsimp only [Run.processing]
    rw [hmade]
    rfl
  | @exhausted run h hlocked =>
    refine ⟨run, "<end of chain>", none, .refl run, ?_⟩
    dsimp only [forecast, Run.stepping]
    rw [h]
    dsimp only [Run.exhausting]
    rw [if_pos hlocked]
  | @dropped s => exact ⟨s.run, s.unit, some s.position, .refl s.run, rfl⟩
  | @refused s e => exact ⟨s.run, s.unit, some s.position, .refl s.run, rfl⟩

theorem forecast_of_failsWith {job : Job} {f : UnitFailure} {own : Accumulator}
    (h : job.FailsWith settings f own) :
    ∃ base unit position, (job.forecast settings).progress
      = (Run.failing settings base unit position f own).progress := by
  cases h with
  | fails h =>
    obtain ⟨base, unit, position, -, hforecast⟩ := forecast_of_fails h
    exact ⟨base, unit, position, hforecast⟩
  | @refuses base own h hlocked =>
    obtain ⟨unit, position, hforecast⟩ := forecast_of_applies h
    refine ⟨base, unit, some position, hforecast.trans ?_⟩
    unfold Run.applying
    dsimp only
    rw [if_pos hlocked]
  | @encodes base status value own e h hcodec =>
    obtain ⟨unit, position, hforecast⟩ := forecast_of_applies h
    refine ⟨base, unit, some position, hforecast.trans ?_⟩
    unfold Run.applying Run.responding
    dsimp only
    rw [hcodec]

theorem forecast_of_exhausted {run : Run} (h : run.remnant.next? = none)
    (hlocked : run.locked = false) :
    ((Job.step run).forecast settings).progress = .ended (.rejected run.evaluated none) := by
  dsimp only [forecast, Run.stepping]
  rw [h]
  dsimp only [Run.exhausting]
  rw [hlocked]
  rfl

theorem forecast_of_defers {run : Run} {s : Suspension} {plan : DeferralPlan}
    (h : run.Defers settings s plan) :
    ((Job.step run).forecast settings).progress = .suspended s plan := by
  cases h with
  | intro h hname hend =>
    unfold forecast
    rw [stepping_of_takes h, evaluating_of_name hname, hend]
    rfl

theorem forecast_of_nameless {run taken : Run} {u : HandlerUnit} {payload : PanicPayload}
    (h : run.Takes settings u taken) (hname : u.name = .error payload) :
    ((Job.step run).forecast settings).progress = .escaped := by
  unfold forecast
  rw [stepping_of_takes h]
  unfold Run.evaluating
  rw [hname]

theorem takes_cases (run : Run) :
    (∃ u taken, run.Takes settings u taken) ∨ run.remnant.next? = none ∨
      ∃ spec remnant e, run.remnant.next? = some (.spec spec, remnant) ∧
        (run.past remnant).made settings spec = .error e := by
  cases hnext : run.remnant.next? with
  | none => exact .inr (.inl rfl)
  | some next =>
    obtain ⟨element, remnant⟩ := next
    cases element with
    | unit u => exact .inl ⟨u, _, .unit hnext⟩
    | spec spec =>
      cases hmade : (run.past remnant).made settings spec with
      | ok u => exact .inl ⟨u, _, .spec hnext hmade⟩
      | error e => exact .inr (.inr ⟨spec, remnant, e, rfl, hmade⟩)

theorem forecast_cases (settings : Settings) (job : Job) :
    (∃ base outcome own, job.Applies settings base outcome own) ∨
    (∃ f own, job.Fails settings f own) ∨
    (∃ run s plan, job = .step run ∧ run.Defers settings s plan) ∨
    (∃ run u taken payload, job = .step run ∧ run.Takes settings u taken ∧
      u.name = .error payload) ∨
    (∃ run, job = .step run ∧ run.remnant.next? = none ∧ run.locked = false) := by
  cases job with
  | resume s r =>
    match r with
    | .ok resolution => exact .inl ⟨_, _, _, .resolved⟩
    | .error .abandoned => exact .inr (.inl ⟨_, _, .dropped⟩)
    | .error (.failed e) => exact .inr (.inl ⟨_, _, .refused⟩)
  | step run =>
    obtain htakes | hnone | hbroken := @takes_cases settings run
    . obtain ⟨u, taken, h⟩ := htakes
      cases hname : u.name with
      | error payload => exact .inr (.inr (.inr (.inl ⟨run, u, taken, payload, rfl, h, hname⟩)))
      | ok name =>
        cases hend : (u.evaluate taken.view).ending with
        | decided outcome => exact .inl ⟨_, _, _, .decided h hname hend⟩
        | deferred plan => exact .inr (.inr (.inl ⟨run, _, plan, rfl, .intro h hname hend⟩))
        | failed e => exact .inr (.inl ⟨_, _, .failed h hname hend⟩)
        | panicked payload => exact .inr (.inl ⟨_, _, .panicked h hname hend⟩)
    . cases hlocked : run.locked with
      | true => exact .inr (.inl ⟨_, _, .exhausted hnone hlocked⟩)
      | false => exact .inr (.inr (.inr (.inr ⟨run, rfl, hnone, hlocked⟩)))
    . obtain ⟨spec, remnant, e, h, hmade⟩ := hbroken
      exact .inr (.inl ⟨_, _, .uninstantiated h hmade⟩)

end Job

structure Passage where
  own : Accumulator
  objects : List ContextObject
  locked : Bool

def layers (ps : List Passage) : Accumulator :=
  (ps.map Passage.own).foldl Accumulator.merge .empty

/--
The units that the run of a flight has passed, in the order in which their outcomes were applied. As
long as a flight waits for a deferred unit, it keeps what that unit has written, and is resumed with
what the unit was resolved with.
-/
inductive Flight.Trail (settings : Settings) : List Passage → Flight → Prop
  | start (chain : HandlerChain) (context : Context) (channel outer : ChannelId) (owner : Owner) :
    Trail settings [] (.queued (.step (.ofChain chain context channel outer owner)))
  | passed {ps : List Passage} {p : Passage} {job : Job} {base later : Run}
    (h : Trail settings ps (.queued job))
    (happlies : job.Applies settings base (.consumed p.objects p.locked) p.own)
    (hcomes : job.ComesTo settings (.continues later)) :
    Trail settings (ps ++ [p]) (.queued (.step later))
  | deferred {ps : List Passage} {run : Run} {s : Suspension} {plan : DeferralPlan}
    (h : Trail settings ps (.queued (.step run))) (hdefers : run.Defers settings s plan) :
    Trail settings ps (s.flight plan)
  | resumed {ps : List Passage} {s : Suspension} {closes : Bool} {outer : ChannelId} {r : Resolved}
    (h : Trail settings ps (.parked s closes outer r)) : Trail settings ps (.queued (.resume s r))

/-- The units that a run has passed on the way to where some flight has it. -/
def Run.Trail (settings : Settings) (ps : List Passage) (run : Run) : Prop :=
  ∃ f : Flight, f.run = run ∧ f.Trail settings ps

section Trail

variable {run later : Run} {job : Job} {f : Flight} {ps : List Passage} {s : Suspension}
  {plan : DeferralPlan} {unit : String} {position : Nat} {own : Accumulator}

theorem Run.Defers.resembles (h : run.Defers settings s plan) : run.Resembles s.run := by
  cases h with
  | intro h hname hend => exact (Job.resembles_of_takes h).trans (Run.resembles_edited _ _)

theorem Run.later_of_passed {base : Run} {p : Passage}
    (happlies : job.Applies settings base (.consumed p.objects p.locked) p.own)
    (hcomes : job.ComesTo settings (.continues later)) :
    later = base.consume p.own p.objects p.locked := by
  obtain ⟨unit, position, hforecast⟩ := Job.forecast_of_applies happlies
  have hprogress := Job.comesTo_eq hcomes (by simp)
  rw [hforecast] at hprogress
  injection hprogress with hlater
  exact hlater.symm

theorem Flight.Trail.locked_eq (h : f.Trail settings ps) :
    f.run.locked = ps.any Passage.locked := by
  induction h with
  | start => rfl
  | @passed ps p job base later h happlies hcomes ih =>
    rw [Run.later_of_passed happlies hcomes, List.any_append, ← ih]
    change (base.locked || p.locked) = (job.run.locked || [p].any Passage.locked)
    rw [happlies.resembles.locked, List.any_cons, List.any_nil, Bool.or_false]
  | @deferred ps run s plan h hdefers ih =>
    rw [Suspension.flight_run, hdefers.resembles.locked]
    exact ih
  | resumed h ih => exact ih

theorem Run.Trail.locked_eq (h : run.Trail settings ps) : run.locked = ps.any Passage.locked := by
  obtain ⟨f, rfl, htrail⟩ := h
  exact htrail.locked_eq

/-- Whoever responds is done, whatever becomes of the response. -/
theorem Run.flight?_responding {status : Status} {message : Option ResponseMessage} :
    (run.responding settings unit position status message own).progress.flight? = none := by
  unfold responding
  dsimp only
  split
  . rfl
  . rfl
  . split <;> rfl

/-- A run goes on only after an outcome that consumes. -/
theorem Run.eq_of_applying_continues {outcome : Outcome}
    (h : (run.applying settings unit position outcome own).progress = .continues later) :
    ∃ objects locked, outcome = .consumed objects locked ∧
      later = run.consume own objects locked := by
  cases outcome with
  | rejected =>
    unfold applying at h
    dsimp only at h
    split at h <;> cases h
  | consumed objects locked =>
    injection h with h
    exact ⟨objects, locked, rfl, h.symm⟩
  | respondWith status message =>
    exact nomatch flight?_responding.symm.trans (congrArg Progress.flight? h)

theorem Run.applying_ne_suspended {outcome : Outcome} :
    (run.applying settings unit position outcome own).progress ≠ .suspended s plan := by
  unfold applying
  split
  . split <;> exact nofun
  . exact nofun
  . exact fun h => nomatch flight?_responding.symm.trans (congrArg Progress.flight? h)

/-- A job after which its run is still under way has applied an outcome, or waits for one. -/
theorem Job.underway_cases (settings : Settings) (job : Job) :
    (∃ base outcome own unit position, job.Applies settings base outcome own ∧
      (job.forecast settings).progress
        = (base.applying settings unit position outcome own).progress) ∨
    (∃ run s plan, job = .step run ∧ run.Defers settings s plan ∧
      (job.forecast settings).progress = .suspended s plan) ∨
    (job.forecast settings).progress.flight? = none := by
  obtain happlies | hfails | hdeferred | hnameless | hexhausted := forecast_cases settings job
  . obtain ⟨base, outcome, own, happlies⟩ := happlies
    obtain ⟨unit, position, hforecast⟩ := forecast_of_applies happlies
    exact .inl ⟨base, outcome, own, unit, position, happlies, hforecast⟩
  . obtain ⟨f, own, hfails⟩ := hfails
    obtain ⟨base, unit, position, -, hforecast⟩ := forecast_of_fails hfails
    exact .inr (.inr (congrArg Progress.flight? hforecast))
  . obtain ⟨run, s, plan, rfl, hdefers⟩ := hdeferred
    exact .inr (.inl ⟨run, s, plan, rfl, hdefers, forecast_of_defers hdefers⟩)
  . obtain ⟨run, u, taken, payload, rfl, htakes, hname⟩ := hnameless
    exact .inr (.inr (congrArg Progress.flight? (forecast_of_nameless htakes hname)))
  . obtain ⟨run, rfl, hnone, hlocked⟩ := hexhausted
    exact .inr (.inr (congrArg Progress.flight? (forecast_of_exhausted hnone hlocked)))

theorem Flight.Trail.exists_of_continues (h : (Flight.queued job).Trail settings ps)
    (hcomes : job.ComesTo settings (.continues later)) :
    ∃ p, (Flight.queued (.step later)).Trail settings (ps ++ [p]) := by
  have hprogress := Job.comesTo_eq hcomes (by simp)
  obtain happlies | hdeferred | hlast := Job.underway_cases settings job
  . obtain ⟨base, outcome, own, unit, position, happlies, hforecast⟩ := happlies
    rw [hforecast] at hprogress
    obtain ⟨objects, locked, rfl, -⟩ := Run.eq_of_applying_continues hprogress
    exact ⟨⟨own, objects, locked⟩, .passed h happlies hcomes⟩
  . obtain ⟨run, s, plan, -, -, hforecast⟩ := hdeferred
    rw [hforecast] at hprogress
    cases hprogress
  . rw [hprogress] at hlast
    cases hlast

/-- Only a step is suspended, and only by a unit that defers its decision. -/
theorem Job.exists_defers (hcomes : job.ComesTo settings (.suspended s plan)) :
    ∃ run, job = .step run ∧ run.Defers settings s plan := by
  have hprogress := Job.comesTo_eq hcomes (by simp)
  obtain happlies | hdeferred | hlast := underway_cases settings job
  . obtain ⟨base, outcome, own, unit, position, -, hforecast⟩ := happlies
    rw [hforecast] at hprogress
    exact absurd hprogress Run.applying_ne_suspended
  . obtain ⟨run, other, plan', rfl, hdefers, hforecast⟩ := hdeferred
    rw [hforecast] at hprogress
    cases hprogress
    exact ⟨run, rfl, hdefers⟩
  . rw [hprogress] at hlast
    cases hlast

end Trail

namespace Machine

variable {m m' : Machine} {f : Flight}

/-- Where a flight that waits after a step of an engine was before. -/
inductive Origin (m : Machine) (f : Flight) : Prop
  | waits (hf : m.Holds f)
  | wakes {s : Suspension} {closes : Bool} {outer : ChannelId} {r : Resolved}
    (hparked : m.Holds (.parked s closes outer r)) (hf : f = .queued (.resume s r))
  | leaves {job : Job} {p : Progress} (hjob : m.Holds (.queued job))
    (hcomes : job.ComesTo m.settings p) (hf : p.flight? = some f)
  | starts {chain : HandlerChain} {context : Context} {channel outer : ChannelId} {owner : Owner}
    (hf : f = .queued (.step (.ofChain chain context channel outer owner)))

theorem Acts.origin {who : Nat → Prop} (h : Acts who m m') (hf : m'.Holds f) : m.Origin f := by
  cases h.holds hf with
  | inl hold => exact .waits hold
  | inr hnew =>
    obtain ⟨d, chain, rfl, -⟩ := hnew
    exact .starts rfl

theorem origin_of_runJob? (hm : m.Sane) (h : m.runJob? = some m') (hf : m'.Holds f) :
    m.Origin f := by
  obtain ⟨job, started, hstart, rfl⟩ := exists_work_of_runJob? h
  have hholds := holds_of_startJob? hstart
  have hg := grows_startJob? hstart
  have hfit := hm.fits_startJob? hstart
  obtain hold | hnew | hchain := holds_of_work hfit ((sameWork_endJob _).holds hf)
  . exact .waits (holds_of_holds_started hstart hold)
  . exact .leaves hholds ⟨started, hg.settings, hm.startJob? hstart, hfit, rfl⟩ hnew
  . obtain ⟨d, chain, rfl⟩ := hchain
    exact .starts rfl

theorem Step.origin (h : m.Step m') (hm : m.Sane) (hf : m'.Holds f) : m.Origin f := by
  cases h with
  | work h => apply origin_of_runJob? hm h hf
  | @reorder waiting hperm =>
    cases f with
    | queued job => exact .waits (hperm.mem_iff.mp hf)
    | parked s closes outer r => exact .waits hf
  | ring now htimers =>
    cases holds_of_ring htimers hf with
    | inl hold => exact .waits hold
    | inr hresumed =>
      obtain ⟨s, closes, outer, r, hparked, heq⟩ := hresumed
      exact .wakes hparked heq
  | @dispatch channel request hc =>
    have hacts := @acts_dispatch m (fun _ => True) channel channel trivial hc request false
    apply hacts.origin hf
  | runChain chain context hc =>
    cases holds_of_submit hf with
    | inl hold => exact .waits hold
    | inr hnew => exact .starts hnew
  | @runFailedPage channel page context e hc =>
    have hacts := @acts_runFailedPage m (fun _ => False) channel page context e
    apply hacts.origin hf
  | connect wire hw => exact .waits hf
  | close id => exact .waits hf
  | registerPage page => exact .waits hf
  | addDecorator decorator => exact .waits hf

theorem comesTo_turn {settings : Settings} {job : Job} {started : Machine}
    (h : Reachable settings m) (hstart : m.startJob? = some (job, started)) :
    job.ComesTo settings (started.turn job).2 := by
  have ⟨hsane, hsettings⟩ := h.sane
  have hg := grows_startJob? hstart
  exact ⟨started, hg.settings.trans hsettings, hsane.startJob? hstart, hsane.fits_startJob? hstart,
    rfl⟩

/-- Whatever waits in an engine has come there on a trail. -/
theorem Reachable.exists_trail (h : Reachable settings m) (hf : m.Holds f) :
    ∃ ps, f.Trail settings ps := by
  obtain ⟨pages, decorators, hreach⟩ := h
  induction hreach generalizing f with
  | refl => exact absurd hf not_holds_new
  | @tail mid last hmid hlast ih =>
    -- the job that a run was left by waited itself before, with a history of its own
    have hreachable : Reachable settings mid := ⟨pages, decorators, hmid⟩
    cases hlast.origin hreachable.sane.1 hf with
    | waits hf => exact ih hf
    | wakes hparked heq =>
      obtain ⟨ps, hps⟩ := ih hparked
      rw [heq]
      exact ⟨ps, .resumed hps⟩
    | @leaves job p hjob hcomes hflight =>
      rw [hreachable.sane.2] at hcomes
      obtain ⟨ps, hps⟩ := ih hjob
      cases p with
      | continues later =>
        cases hflight
        obtain ⟨p, hp⟩ := hps.exists_of_continues hcomes
        exact ⟨ps ++ [p], hp⟩
      | suspended s plan =>
        cases hflight
        obtain ⟨run, rfl, hdefers⟩ := Job.exists_defers hcomes
        exact ⟨ps, .deferred hps hdefers⟩
      | ended result => cases hflight
      | escaped => cases hflight
    | @starts chain context channel outer owner heq =>
      rw [heq]
      exact ⟨[], .start chain context channel outer owner⟩

end Machine
end PageDispatch
