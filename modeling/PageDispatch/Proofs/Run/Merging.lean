import PageDispatch.Proofs.Run.History

/-!
This module contains the verification of how the answer of a run is put together: the writings of
its units are laid over each other once and in order, and the engine completes those of the last
one.
-/

namespace PageDispatch

variable {settings : Settings}

inductive Verdict where
  | respond (status : Status) (message : Option ResponseMessage)
  | failure (f : UnitFailure)

/--
The verdict on a run at its next element, and what the unit of it has written by then, the writings
of its resolution included.
-/
inductive Run.Concludes (settings : Settings) (run : Run) : Verdict → Accumulator → Prop
  | responded {u : HandlerUnit} {taken : Run} {name : String} {status : Status}
    {message : Option ResponseMessage} {own : Accumulator} (h : run.Takes settings u taken)
    (hname : u.name = .ok name)
    (hdecision : (u.evaluate taken.view).decision
      = (.outcome (.respondWith status message), own)) :
    Concludes settings run (.respond status message) own
  | rejected {u : HandlerUnit} {taken : Run} {name : String} {own : Accumulator}
    (h : run.Takes settings u taken) (hname : u.name = .ok name)
    (hdecision : (u.evaluate taken.view).decision = (.outcome .rejected, own))
    (hlocked : run.locked = true) : Concludes settings run (.failure .lockedRejection) own
  | failed {u : HandlerUnit} {taken : Run} {name : String} {f : UnitFailure} {own : Accumulator}
    (h : run.Takes settings u taken) (hname : u.name = .ok name)
    (hdecision : (u.evaluate taken.view).decision = (.failure f, own)) :
    Concludes settings run (.failure f) own
  | uninstantiated {spec : UnitSpec} {remnant : Remnant} {e : CauseChain}
    (h : run.remnant.next? = some (.spec spec, remnant))
    (hmade : (run.past remnant).made settings spec = .error e) :
    Concludes settings run (.failure (.instantiation e)) .empty
  | exhausted (h : run.remnant.next? = none) (hlocked : run.locked = true) :
    Concludes settings run (.failure .lockedExhaustion) .empty

theorem contains_headers_foldl_merge (ps : List Passage) (a : Accumulator) (name : HeaderName) :
    ((ps.map Passage.own).foldl Accumulator.merge a).headers.contains name
      =
    (a.headers.contains name || ps.any (·.own.headers.contains name)) := by
  induction ps generalizing a with
  | nil => simp
  | cons p rest ih =>
    rw [List.map_cons, List.foldl_cons, ih, Accumulator.contains_headers_merge, List.any_cons,
      Bool.or_assoc]

section Decisions

variable {d : Decision} {unit unit' : String} {position position' : Nat}
  {place : Option Nat} {own own' : Accumulator}

theorem Decision.eq_of_ruling_decides {outcome : Outcome}
    (h : d.ruling unit position own = .decides unit' position' outcome own') :
    d = .outcome outcome ∧ own = own' := by
  cases d with
  | outcome o =>
    injection h with _ _ houtcome hown
    exact ⟨congrArg Decision.outcome houtcome, hown⟩
  | failure f => cases h

theorem Decision.eq_of_ruling_fails {f : UnitFailure}
    (h : d.ruling unit position own = .fails unit' place f own') : d = .failure f ∧ own = own' := by
  cases d with
  | outcome o => cases h
  | failure f =>
    injection h with _ _ hfailure hown
    exact ⟨congrArg Decision.failure hfailure, hown⟩

end Decisions

namespace Run

variable {run later : Run} {ps : List Passage} {unit : String} {position : Nat}
  {place : Option Nat} {own : Accumulator} {a : Answer} {g : Glance}

theorem exists_decision_of_decides {outcome : Outcome}
    (h : (run.stance settings).ruling.resolved = .decides unit position outcome own) :
    ∃ u taken name, run.Takes settings u taken ∧ u.name = .ok name ∧
      (u.evaluate taken.view).decision = (.outcome outcome, own) := by
  have hdecision : (run.stance settings).ruling.resolved.IsDecision := by
    rw [h]
    trivial
  obtain ⟨element, u, remnant, name, hnext, htakes, hname, -, -, hruling⟩ :=
    stance_of_isDecision hdecision.of_resolved
  rw [hruling, UnitWork.ruling_resolved] at h
  have ⟨houtcome, hown⟩ := Decision.eq_of_ruling_decides h
  exact ⟨u, _, name, htakes, hname, Prod.ext houtcome hown⟩

/-- A run fails because of a unit, because there is none to be had, or because none is left. -/
theorem concludes_of_fails {f : UnitFailure}
    (h : (run.stance settings).ruling.resolved = .fails unit place f own) :
    run.Concludes settings (.failure f) own := by
  obtain ⟨u, taken, htakes⟩ | hnone | ⟨spec, remnant, e, hnext, hmade⟩ :=
    @Job.takes_cases settings run
  . obtain ⟨before, -, hstance⟩ := stance_of_takes htakes
    rw [hstance] at h
    unfold standing at h
    cases hname : u.name with
    | error payload =>
      rw [hname] at h
      cases h
    | ok name =>
      rw [hname] at h
      dsimp only at h
      rw [UnitWork.ruling_resolved] at h
      have ⟨hfailure, hown⟩ := Decision.eq_of_ruling_fails h
      exact .failed htakes hname (Prod.ext hfailure hown)
  . unfold stance at h
    rw [hnone] at h
    dsimp only at h
    split at h
    . next hlocked =>
      cases h
      exact .exhausted hnone hlocked
    . cases h
  . unfold stance facing at h
    rw [hnext] at h
    dsimp only at h
    rw [hmade] at h
    cases h
    exact .uninstantiated hnext hmade

/-- A run that ends in an answer has come to a unit that responds, or to a failure. -/
theorem concludes_of_passing (h : (run.passing settings g).progress = .ended (.answered a)) :
    ∃ own unit later, run.Resembles later ∧
      ((∃ status message position, run.Concludes settings (.respond status message) own ∧
        (later.responding settings unit position status message own).progress
          = .ended (.answered a)) ∨
      ∃ f place, run.Concludes settings (.failure f) own ∧
        (later.failing settings unit place f own).progress = .ended (.answered a)) := by
  cases g with
  | unseen => cases h
  | seen isOpen =>
    change ((run.stance settings).run.taking settings isOpen
      (run.stance settings).ruling.resolved).progress = _ at h
    have hresembles := @resembles_stance settings run
    generalize hlater : (run.stance settings).run = later at h hresembles
    cases hruling : (run.stance settings).ruling.resolved with
    | defers unit position own plan => exact absurd hruling (resolved_ne_defers _)
    | runsOut =>
      rw [hruling] at h
      cases h
    | escapes =>
      rw [hruling] at h
      cases h
    | fails unit place f own =>
      rw [hruling] at h
      cases isOpen with
      | false => cases h
      | true => exact ⟨own, unit, later, hresembles, .inr ⟨f, place, concludes_of_fails hruling, h⟩⟩
    | decides unit position outcome own =>
      obtain ⟨u, taken, name, htakes, hname, hdecision⟩ := exists_decision_of_decides hruling
      rw [hruling] at h
      unfold taking at h
      dsimp only at h
      split at h
      . cases outcome with
        | consumed objects locked => cases h
        | respondWith status message =>
          exact ⟨own, unit, later, hresembles,
            .inl ⟨status, message, position, .responded htakes hname hdecision, h⟩⟩
        | rejected =>
          unfold applying at h
          dsimp only at h
          split at h
          . -- a rejection is answered only because of the lock
            next hlocked =>
            have hconcludes : run.Concludes settings (.failure .lockedRejection) own :=
              .rejected htakes hname hdecision (hresembles.locked.symm.trans hlocked)
            exact ⟨own, unit, later, hresembles,
              .inr ⟨.lockedRejection, some position, hconcludes, h⟩⟩
          . cases h
      . cases h

theorem response_of_failing {f : UnitFailure}
    (h : (run.failing settings unit place f own).progress = .ended (.answered a)) :
    a.response
      =
    (run.response.merge (own.writeFailure (f.render settings.exposeDetails))).toResponse := by
  injection h with h
  injection h with h
  rw [← h]
  rfl

end Run

/-- What a job makes of the run that it is at, unless it suspends it. -/
theorem Flight.IsAt.progress_eq {job : Job} {run : Run} {g : Glance}
    (h : (Flight.queued job).IsAt settings run) (hg : ∀ s r, job = .resume s r → g ≠ .unseen)
    (hp : ∀ s plan, (job.seeing settings g).progress ≠ .suspended s plan) :
    (job.seeing settings g).progress = (run.passing settings g).progress := by
  cases h with
  | step => rw [seeing_step_eq_passing hp]
  | @resume s r hhalts =>
    obtain ⟨es, plan, hstance, rfl⟩ := hhalts
    cases g with
    | unseen => exact absurd rfl (hg s _ rfl)
    | seen isOpen =>
      simp only [Run.passing, hstance, Ruling.resolved]
      rfl

namespace Machine

variable {m started : Machine} {first : Run} {job : Job} {gs : List Glance} {es es' : List Event}
  {a : Answer}

/-- The last job of a run is one at an element, and it ends the run as that element does. -/
theorem Lives.exists_passing {result : ChainResult}
    (h : Lives settings first m (.queued job) gs es) (hstart : m.startJob? = some (job, started))
    (htold : (started.turn job).1.told job.run.owner.id?
      = started.told job.run.owner.id? ++ es')
    (hend : (started.turn job).2 = .ended result) :
    ∃ vs run last, (Flight.queued job).IsAt settings run ∧
      first.Recounts settings (es ++ es') vs run last ∧
      (run.passing settings (started.glance job)).progress = .ended result := by
  obtain ⟨vs, run, last, hat, hrecounts⟩ := h.exists_recounts_of_turn hstart htold
  have hended := (h.does hstart).progress.symm.trans hend
  refine ⟨vs, run, last, hat, hrecounts, ?_⟩
  rw [← hat.progress_eq glance_resume_ne_unseen]
  . exact hended
  . intro s plan hsuspended
    rw [hended] at hsuspended
    cases hsuspended

theorem failPage_eq_some {page : String} {context : Context} {channel outer : ChannelId}
    {owner : Owner} {e : CauseChain}
    (h : (m.failPage page context channel outer owner e).2 = some a) :
    a.response = ((layers []).merge
      (Accumulator.empty.writeFailure
        ((UnitFailure.pageBuild e).render m.settings.exposeDetails))).toResponse := by
  unfold failPage fail at h
  split at h
  . injection h with h
    rw [← h]
    rfl
  . cases h

end Machine
end PageDispatch
