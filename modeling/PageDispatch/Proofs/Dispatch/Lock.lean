import PageDispatch.Engine.Journal
import PageDispatch.Proofs.Dispatch.Census
import PageDispatch.Proofs.Run.Trail

/-!
This module contains the verification of locks: once a unit has locked its run, the run is never
rejected, and its dispatch tries no other page.
-/

namespace PageDispatch

structure Prospect.StaysWith (run : Run) (p : Prospect) : Prop where
  trials : ∀ e ∈ p.events, e.isTrial = false
  flight : ∀ f, p.fate = .flies f → run.Precedes f.run

section Prospects

variable {settings : Settings} {decorators : List Decorator} {d : Dispatch}

theorem not_flies_of_abandons {d : Dispatch} {P : Prop} {f : Flight}
    (h : Fate.abandons d = .flies f) : P := by
  cases h

theorem takes_staysWith {run : Run} {p : Prospect} (h : d.Takes settings decorators run p)
    (hlocked : run.locked = true) : p.StaysWith run := by
  cases h with
  | goes hes hf =>
    constructor
    . apply isTrial_of_isOfRun
      apply isOfRun_of_isEffort hes
    . intro g hg
      cases hg
      assumption
  | answers hes hd =>
    constructor
    . apply isTrial_of_isOfRun hes
    . intro g hg
      cases hg
  | @escapes es hes =>
    have htrial := isTrial_of_isOfRun (isOfRun_of_isEffort hes)
    constructor
    . dsimp only
      rw [List.forall_mem_append]
      refine ⟨htrial, ?_⟩
      simp [Event.isTrial]
    . intro g hg
      cases hg
  | falls hes hopen =>
    rw [hlocked] at hopen
    cases hopen

end Prospects

namespace Strand

def trials (s : Strand) : List Event := s.events.filter Event.isTrial

/-- Whether a dispatch stays with a run: all that goes on are later states of it. -/
structure StaysWith (run : Run) (tried : List Event) (s : Strand) : Prop where
  trials : s.trials = tried
  flights : ∀ f ∈ s.flights, run.Precedes f.run

variable {run : Run} {tried : List Event} {s s' : Strand}

theorem trials_note_of_none {es : List Event} (h : ∀ e ∈ es, e.isTrial = false) :
    (s.note es).trials = s.trials := by
  have hnone : es.filter Event.isTrial = [] := by
    rw [List.filter_eq_nil_iff]
    intro e he
    simp [h e he]
  unfold trials note
  rw [List.filter_append, hnone, List.append_nil]

theorem StaysWith.note {es : List Event} (h : s.StaysWith run tried)
    (hes : ∀ e ∈ es, e.isTrial = false) : (s.note es).StaysWith run tried :=
  ⟨(trials_note_of_none hes).trans h.trials, h.flights⟩

theorem StaysWith.note_singleton {e : Event} (h : s.StaysWith run tried) (he : e.isTrial = false) :
    (s.note [e]).StaysWith run tried := by
  refine h.note ?_
  intro event hmem
  rw [List.mem_singleton.mp hmem]
  exact he

theorem StaysWith.fly {f : Flight} (h : s.StaysWith run tried) (hf : run.Precedes f.run) :
    (s.fly f).StaysWith run tried := by
  refine ⟨h.trials, ?_⟩
  intro g hg
  cases Multiset.mem_add.mp hg with
  | inl hold => exact h.flights g hold
  | inr hnew =>
    rw [Multiset.mem_singleton.mp hnew]
    exact hf

theorem StaysWith.of_fly {f : Flight} (h : (s.fly f).StaysWith run tried) :
    s.StaysWith run tried ∧ run.Precedes f.run := by
  refine ⟨⟨h.trials, ?_⟩, ?_⟩
  . intro g hg
    exact h.flights g (Multiset.mem_add.mpr (.inl hg))
  . exact h.flights f (Multiset.mem_add.mpr (.inr (Multiset.mem_singleton_self f)))

theorem StaysWith.leaves {fate : Fate} {closed : Prop} (h : s.StaysWith run tried)
    (hfate : ∀ f, fate = .flies f → run.Precedes f.run) (hleaves : fate.Leaves closed s s') :
    s'.StaysWith run tried := by
  cases hleaves with
  | flies f => exact h.fly (hfate f rfl)
  | answers now hdelivers =>
    refine StaysWith.note_singleton ?_ rfl
    cases hdelivers with
    | later hr => exact ⟨h.trials, h.flights⟩
    | sent hr => exact h.note_singleton rfl
    | withheld hr hc => exact h.note_singleton rfl
  | abandons d now => exact h.note_singleton rfl

end Strand

namespace Machine

def trials (m : Machine) (i : Nat) : List Event :=
  m.journal.filter fun e => e.dispatch? = some i && e.isTrial

variable {m m' n : Machine} {i : Nat} {run : Run} {tried : List Event} {f : Flight}

theorem Affects.staysWith (h : m.Affects m' i) (hlocked : run.locked = true)
    (hs : (m.strand i).StaysWith run tried) : (m'.strand i).StaysWith run tried := by
  cases h with
  | idle h =>
    rw [h]
    exact hs
  | @worked started job d decorators hstart hid howner hbefore hafter hmeets =>
    subst hid
    rw [hstart] at hs
    obtain ⟨hstarted, hjob⟩ := hs.of_fly
    have hstays := takes_staysWith (@prospect_takes m.settings decorators d job)
      (hjob.locked hlocked)
    obtain ⟨es, fate, hleaves, hcase⟩ := hmeets
    cases hcase with
    | inl hkept =>
      obtain ⟨rfl, rfl⟩ := hkept
      refine (hstarted.note hstays.trials).leaves ?_ hleaves
      intro f hf
      exact hjob.trans (hstays.flight f hf)
    | inr hclosed =>
      obtain ⟨hes, -, tried, current, rfl⟩ := hclosed
      refine (hstarted.note ?_).leaves (fun _ hf => not_flies_of_abandons hf) hleaves
      exact fun e he => hstays.trials e (hes.subset he)
  | @woke s closes outer r rest hs' hs'' =>
    rw [hs'] at hs
    obtain ⟨hrest, hjob⟩ := hs.of_fly
    rw [hs'']
    exact hrest.fly hjob
  | sent hs' hs'' =>
    rw [hs'] at hs
    rw [hs'']
    exact Strand.StaysWith.note_singleton ⟨hs.trials, hs.flights⟩ rfl
  | withheld hs' hs'' hc =>
    rw [hs'] at hs
    rw [hs'']
    exact Strand.StaysWith.note_singleton ⟨hs.trials, hs.flights⟩ rfl

theorem Reaches.staysWith (h : m.Reaches n) (hm : m.Sane) (hi : i < m.dispatches)
    (hlocked : run.locked = true) (hs : (m.strand i).StaysWith run tried) :
    (n.strand i).StaysWith run tried := by
  induction h with
  | refl => exact hs
  | @tail mid last hmid hlast ih =>
    have ⟨hsane, hg⟩ := Reaches.sane hmid hm
    exact (hlast.affects hsane (Nat.lt_of_lt_of_le hi hg.dispatches)).staysWith hlocked ih

theorem flight?_eq_some {job : Job} (h : job.flight? i = some f) :
    f = .queued job ∧ job.run.owner.id? = some i := by
  unfold Job.flight? at h
  split at h
  . next hown => exact ⟨(Option.some.inj h).symm, hown⟩
  . cases h

theorem alarm_flight?_eq_some {alarm : Alarm} (h : alarm.flight? i = some f) :
    ∃ s closes outer r, alarm = .resolve (.registered s) closes outer r ∧
      f = .parked s closes outer r ∧ s.run.owner.id? = some i := by
  unfold Alarm.flight? at h
  split at h
  . next s closes outer r =>
    split at h
    . next hown => exact ⟨s, closes, outer, r, rfl, (Option.some.inj h).symm, hown⟩
    . cases h
  . cases h

theorem mem_flights_iff : f ∈ (m.strand i).flights ↔ m.Holds f ∧ f.run.owner.id? = some i := by
  unfold strand
  rw [Multiset.mem_add, Multiset.mem_coe, Multiset.mem_coe, List.mem_filterMap,
    List.mem_filterMap]
  constructor
  . intro h
    cases h with
    | inl hqueued =>
      obtain ⟨job, hmem, hjob⟩ := hqueued
      obtain ⟨rfl, hown⟩ := flight?_eq_some hjob
      exact ⟨hmem, hown⟩
    | inr hparked =>
      obtain ⟨timer, hmem, halarm⟩ := hparked
      obtain ⟨s, closes, outer, r, heq, rfl, hown⟩ := alarm_flight?_eq_some halarm
      refine ⟨⟨timer.due, ?_⟩, hown⟩
      rw [← heq]
      exact hmem
  . rintro ⟨hholds, hown⟩
    cases f with
    | queued job => exact .inl ⟨job, hholds, if_pos hown⟩
    | parked s closes outer r =>
      obtain ⟨due, hmem⟩ := hholds
      exact .inr ⟨_, hmem, if_pos hown⟩

theorem trials_eq : m.trials i = (m.strand i).trials := by
  unfold trials Strand.trials strand
  rw [List.filter_filter]
  congr
  funext e
  exact Bool.and_comm _ _

theorem flights_eq_singleton {settings : Settings} (h : Reachable settings m) (hf : m.Holds f)
    (hown : f.run.owner.id? = some i) : (m.strand i).flights = {f} := by
  have hmem : f ∈ (m.strand i).flights := mem_flights_iff.mpr ⟨hf, hown⟩
  have hi := (h.sane.1.flights f hf).id_lt hown
  obtain ⟨channel, request, ht⟩ := h.exists_tells hi
  unfold Tells at ht
  generalize m.strand i = s at hmem ht
  cases ht with
  | busy howner hid hch hes => rw [Multiset.mem_singleton.mp hmem]
  | abandoned hes hd hs hc => exact absurd hmem (Multiset.notMem_zero f)
  | pending hes hd hs => exact absurd hmem (Multiset.notMem_zero f)
  | answered hes hd hs hlast => exact absurd hmem (Multiset.notMem_zero f)

end Machine

inductive Progress.Answers : Progress → Prop
  | continues (run : Run) : Answers (.continues run)
  | suspended (s : Suspension) (plan : DeferralPlan) : Answers (.suspended s plan)
  | answered (a : Answer) : Answers (.ended (.answered a))

namespace Job

variable {settings : Settings} {job : Job}

def Named (settings : Settings) (job : Job) : Prop :=
  ∀ run u taken, job = .step run → run.Takes settings u taken → ∃ name, u.name = .ok name

/-- Whether a job ends its run with a rejection, or because no unit is left. -/
def Declines (settings : Settings) (job : Job) : Prop :=
  (∃ base own, job.Applies settings base .rejected own) ∨
    ∃ run, job = .step run ∧ run.remnant.next? = none

theorem failed_status (run : Run) (unit : String) (position : Option Nat) (f : UnitFailure)
    (own : Accumulator) :
    (run.failed settings unit position f own).record.kind = .failure ∧
      (run.failed settings unit position f own).record.status = some .internalServerError ∧
        (run.failed settings unit position f own).response.status = .internalServerError :=
  ⟨rfl, rfl, rfl⟩

theorem responding_cases (hcodec : ∀ value, ∃ r, (settings.codec value).result = .ok r) (run : Run)
    (unit : String) (position : Nat) (status : Status) (message : Option ResponseMessage)
    (own : Accumulator) :
    ∃ a, (run.responding settings unit position status message own).progress
      = .ended (.answered a) := by
  match message with
  | none => exact ⟨_, rfl⟩
  | some (.text s) => exact ⟨_, rfl⟩
  | some (.structured value) =>
    obtain ⟨r, hr⟩ := hcodec value
    unfold Run.responding
    dsimp only
    rw [hr]
    cases r with
    | ok encoded => exact ⟨_, rfl⟩
    | error e => exact ⟨_, rfl⟩

theorem forecast_of_locked (hlocked : job.run.locked = true) (hnamed : job.Named settings)
    (hcodec : ∀ value, ∃ r, (settings.codec value).result = .ok r) :
    (job.forecast settings).progress.Answers := by
  obtain happlies | hfails | hdeferred | hnameless | hexhausted := forecast_cases settings job
  . obtain ⟨base, outcome, own, happlies⟩ := happlies
    obtain ⟨unit, position, hforecast⟩ := forecast_of_applies happlies
    rw [hforecast]
    cases outcome with
    | rejected =>
      have hbase := happlies.resembles.locked.trans hlocked
      unfold Run.applying
      dsimp only
      rw [if_pos hbase]
      exact .answered _
    | consumed objects locked => exact .continues _
    | respondWith status message =>
      obtain ⟨a, ha⟩ := responding_cases hcodec base unit position status message own
      unfold Run.applying
      dsimp only
      rw [ha]
      exact .answered a
  . obtain ⟨f, own, hfails⟩ := hfails
    obtain ⟨base, unit, position, -, hforecast⟩ := forecast_of_fails hfails
    rw [hforecast]
    exact .answered _
  . obtain ⟨run, s, plan, rfl, hdefers⟩ := hdeferred
    rw [forecast_of_defers hdefers]
    exact .suspended s plan
  . obtain ⟨run, u, taken, payload, rfl, htakes, hname⟩ := hnameless
    obtain ⟨name, hok⟩ := hnamed run u taken rfl htakes
    rw [hname] at hok
    cases hok
  . obtain ⟨run, rfl, hnone, hunlocked⟩ := hexhausted
    change run.locked = true at hlocked
    rw [hunlocked] at hlocked
    cases hlocked

theorem forecast_of_declines (hlocked : job.run.locked = true) (h : job.Declines settings) :
    ∃ a, (job.forecast settings).progress = .ended (.answered a) ∧ a.record.kind = .failure ∧
      a.record.status = some .internalServerError ∧ a.response.status = .internalServerError := by
  cases h with
  | inl hrejected =>
    obtain ⟨base, own, happlies⟩ := hrejected
    obtain ⟨unit, position, hforecast⟩ := forecast_of_applies happlies
    have hbase := happlies.resembles.locked.trans hlocked
    refine ⟨base.failed settings unit (some position) .lockedRejection own, ?_,
      failed_status _ _ _ _ _⟩
    rw [hforecast]
    unfold Run.applying
    dsimp only
    rw [if_pos hbase]
    rfl
  | inr hexhausted =>
    obtain ⟨run, rfl, hnone⟩ := hexhausted
    have hfails : (Job.step run).Fails settings .lockedExhaustion .empty :=
      .exhausted hnone hlocked
    obtain ⟨base, unit, position, -, hforecast⟩ := forecast_of_fails hfails
    exact ⟨_, hforecast, failed_status _ _ _ _ _⟩

end Job

namespace Machine

variable {settings : Settings} {m : Machine}

theorem turn_eq_forecast {job : Job} {started : Machine} (h : Reachable settings m)
    (hstart : m.startJob? = some (job, started))
    (hopen : (started.turn job).1.isOpen job.run.channel = true) :
    (started.turn job).2 = (job.forecast settings).progress := by
  have ⟨hsane, hsettings⟩ := h.sane
  have hg := grows_startJob? hstart
  have hfit := hsane.fits_startJob? hstart
  obtain ⟨es, -, hcase⟩ := keeps_turn ((hsane.startJob? hstart).knows hfit)
  rw [hg.settings, hsettings] at hcase
  cases hcase with
  | inl hkept => exact hkept.2
  | inr hclosed =>
    rw [hopen] at hclosed
    cases hclosed.2.1

/--
Once an outcome that locks was applied, the run is never rejected and its dispatch tries no other
page. As long as its channel is open, the run ends in an answer, and in one for a failure if it
would have been rejected otherwise, unless the name of a unit or the codec panics.
-/
theorem Reachable.locked_run_answers (h : Reachable settings m) :
    (∀ job started ps, m.startJob? = some (job, started) → Run.Trail settings ps job.run →
      ps.any Passage.locked = true →
        ∀ evaluated rejecter, (started.turn job).2 ≠ .ended (.rejected evaluated rejecter)) ∧
    (∀ f d ps n, m.Holds f → f.run.owner = .dispatch d → Run.Trail settings ps f.run →
      ps.any Passage.locked = true → m.Reaches n →
        n.trials d.id = m.trials d.id ∧
          ∀ g, n.Holds g → g.run.owner.id? = some d.id → f.run.Precedes g.run) ∧
    (∀ job started ps, m.startJob? = some (job, started) → Run.Trail settings ps job.run →
      ps.any Passage.locked = true → (started.turn job).1.isOpen job.run.channel = true →
      job.Named settings → (∀ value, ∃ r, (settings.codec value).result = .ok r) →
        (started.turn job).2.Answers ∧
        (job.Declines settings →
          ∃ a, (started.turn job).2 = .ended (.answered a) ∧ a.record.kind = .failure ∧
            a.record.status = some .internalServerError ∧
              a.response.status = .internalServerError)) := by
  refine ⟨?_, ?_, ?_⟩
  . intro job started ps hstart htrail hps evaluated rejecter hend
    have hcomes := comesTo_turn h hstart
    have hlocked := htrail.locked_eq.trans hps
    rw [hend] at hcomes
    exact (forecast_sound job).lock hlocked evaluated rejecter (Job.comesTo_eq hcomes (by simp))
  . intro f d ps n hf howner htrail hps hreach
    have hlocked := htrail.locked_eq.trans hps
    have hown : f.run.owner.id? = some d.id := by rw [howner]; rfl
    have hi := (h.sane.1.flights f hf).owner d howner
    -- a busy dispatch has one run only, so the locked one is the one to stay with
    have hflights := flights_eq_singleton h hf hown
    have hstays : (m.strand d.id).StaysWith f.run (m.trials d.id) := by
      refine ⟨trials_eq.symm, ?_⟩
      intro g hg
      rw [hflights] at hg
      rw [Multiset.mem_singleton.mp hg]
      exact (Run.Resembles.refl f.run).precedes
    have hlater := hreach.staysWith h.sane.1 hi hlocked hstays
    refine ⟨trials_eq.trans hlater.trials, ?_⟩
    intro g hg hgown
    exact hlater.flights g (mem_flights_iff.mpr ⟨hg, hgown⟩)
  . intro job started ps hstart htrail hps hopen hnamed hcodec
    have hlocked := htrail.locked_eq.trans hps
    rw [turn_eq_forecast h hstart hopen]
    exact ⟨Job.forecast_of_locked hlocked hnamed hcodec, Job.forecast_of_declines hlocked⟩

def lockedChain (last : HandlerUnit) : List ChainElement :=
  [.unit ⟨.ok "Lock", fun _ => .decide (.consumed [] true)⟩, .unit last]

def refusing : HandlerUnit := ⟨.ok "Refuse", fun _ => .decide .rejected⟩

theorem applies_of_next? {settings : Settings} {run : Run} {u : HandlerUnit} {remnant : Remnant}
    {name : String} {actions : List UnitAction} {own : Accumulator} {edits : List RemnantEdit}
    {outcome : Outcome} (h : run.remnant.next? = some (.unit u, remnant)) (hname : u.name = .ok name)
    (hwork : u.evaluate (run.past remnant).view = ⟨actions, own, edits, .decided outcome⟩) :
    (Job.step run).Applies settings ((run.past remnant).edited edits) outcome own := by
  have hend : (u.evaluate (run.past remnant).view).ending = .decided outcome := by rw [hwork]
  have happlies : (Job.step run).Applies settings _ _ _ := .decided (.unit h) hname hend
  rw [hwork] at happlies
  exact happlies

theorem named_of_next? {settings : Settings} {run : Run} {u : HandlerUnit} {remnant : Remnant}
    {name : String} (h : run.remnant.next? = some (.unit u, remnant)) (hname : u.name = .ok name) :
    (Job.step run).Named settings := by
  intro run' u' taken heq htakes
  injection heq with heq
  subst heq
  cases htakes with
  | unit h' =>
    rw [h] at h'
    cases h'
    exact ⟨name, hname⟩
  | spec h' hmade =>
    rw [h] at h'
    cases h'

theorem refusal_of_lockedChain :
    ∃ m job started ps, Reachable .plain m ∧ m.startJob? = some (job, started) ∧
      Run.Trail .plain ps job.run ∧ ps.any Passage.locked = true ∧
      ∃ a, (started.turn job).2 = .ended (.answered a) ∧ a.record.kind = .failure ∧
        a.record.status = some .internalServerError ∧
          a.response.status = .internalServerError := by
  have hreach := reachable_running .plain (lockedChain refusing)
  have htrail : Run.Trail .plain ([] ++ [⟨.empty, [], true⟩]) _ :=
    ⟨_, rfl, .passed (.start _ _ _ _ _) (applies_of_next? rfl rfl rfl)
      (comesTo_turn (hreach 0) rfl)⟩
  refine ⟨running .plain (lockedChain refusing) 1, _, _, _, hreach 1, rfl, htrail, rfl, ?_⟩
  exact ((Reachable.locked_run_answers (hreach 1)).2.2 _ _ _ rfl htrail rfl rfl
    (named_of_next? rfl rfl)
    (fun value => ⟨_, rfl⟩)).2 (.inl ⟨_, _, applies_of_next? rfl rfl rfl⟩)

/-- A codec that panics ends a locked run without an answer, though its channel is open. -/
theorem lockedChain_abandoned_of_codec_panic :
    let settings := { Settings.plain with codec := fun _ => .panic .other }
    let answering : HandlerUnit := .respond .ok (some (.structured .null))
    let m := running settings (lockedChain answering) 1
    ∃ job started ps, Reachable settings m ∧ m.startJob? = some (job, started) ∧
      Run.Trail settings ps job.run ∧ ps.any Passage.locked = true ∧ job.Named settings ∧
      (started.work job).1.isOpen job.run.channel = true ∧ ¬(started.turn job).2.Answers ∧
      (started.work job).1.result? = some (.abandoned 2) := by
  intro settings answering m
  have hreach := reachable_running settings (lockedChain answering)
  have htrail : Run.Trail settings ([] ++ [⟨.empty, [], true⟩]) _ :=
    ⟨_, rfl, .passed (.start _ _ _ _ _) (applies_of_next? rfl rfl rfl)
      (comesTo_turn (hreach 0) rfl)⟩
  refine ⟨_, _, _, hreach 1, rfl, htrail, rfl, named_of_next? rfl rfl, rfl, ?_, rfl⟩
  intro h
  cases h

end Machine
end PageDispatch
