import PageDispatch.Proofs.Dispatch.Prospect

/-!
This module contains the invariant of machines at work: every run that waits for its next job
belongs to a channel that exists, and to a dispatch that was started, if to any.
-/

namespace PageDispatch

namespace Progress

def flight? : Progress → Option Flight
  | .continues run => some (.queued (.step run))
  | .suspended s plan => some (s.flight plan)
  | .ended _ | .escaped => none

end Progress

namespace Machine

def Holds (m : Machine) : Flight → Prop
  | .queued job => job ∈ m.pool.waiting
  | .parked s closes outer r => ∃ due, ⟨due, .resolve (.registered s) closes outer r⟩ ∈ m.timers

structure Fits (m : Machine) (run : Run) : Prop where
  channel : run.channel < m.wires.length
  owner : ∀ d, run.owner = .dispatch d → d.id < m.dispatches
  line : ∀ d, run.owner = .dispatch d → run.channel = d.channel

structure Sane (m : Machine) : Prop where
  fresh : m.Fresh
  honest : m.Honest
  patterns : m.patterns.Sound
  flights : ∀ f, m.Holds f → m.Fits f.run

variable {m m' : Machine} {who : Nat → Prop} {run : Run} {f : Flight}

theorem Fits.of_grows (h : m.Fits run) (hg : m.Grows m') : m'.Fits run where
  channel := Nat.lt_of_lt_of_le h.channel hg.wires
  owner d hd := Nat.lt_of_lt_of_le (h.owner d hd) hg.dispatches
  line := h.line

theorem Fits.of_precedes {later : Run} (h : m.Fits run) (hrun : run.Precedes later) :
    m.Fits later where
  channel := by
    rw [hrun.channel]
    exact h.channel
  owner d hd := by
    rw [hrun.owner] at hd
    exact h.owner d hd
  line d hd := by
    rw [hrun.owner] at hd
    rw [hrun.channel]
    exact h.line d hd

theorem Fits.id_lt (h : m.Fits run) {i : Nat} (hi : run.owner.id? = some i) : i < m.dispatches := by
  cases hown : run.owner with
  | caller =>
    rw [hown] at hi
    cases hi
  | dispatch d =>
    rw [hown] at hi
    cases hi
    exact h.owner d hown

theorem Sane.knows (h : m.Sane) (hfit : m.Fits run) : m.Knows run :=
  ⟨hfit.channel, fun _ hi => hfit.id_lt hi, h.patterns⟩

theorem not_holds_new {settings : Settings} {pages : List Page} {decorators : List Decorator} :
    ¬(new settings pages decorators).Holds f := by
  intro hf
  cases f with
  | queued job => cases hf
  | parked s closes outer r =>
    obtain ⟨due, hmem⟩ := hf
    cases hmem

theorem sane_new (settings : Settings) (pages : List Page) (decorators : List Decorator) :
    (new settings pages decorators).Sane where
  fresh _ _ := rfl
  honest := by
    refine ⟨?_, ?_, ?_⟩
    . intro channel hlt
      exact absurd hlt (Nat.not_lt_zero channel)
    . intro i channel request hmem
      cases hmem
    . intro before after i channel r heq
      cases before <;> cases heq
  patterns := PatternCache.sound_nil
  flights _ hf := absurd hf not_holds_new

theorem Honest.of_same (h : m.Honest) (hw : m'.wires = m.wires) (hj : m'.journal = m.journal) :
    m'.Honest := by
  refine h.of_journal_eq hj (Nat.le_of_eq (congrArg List.length hw.symm)) ?_
  intro channel hlt hc
  rw [hw] at hlt
  rw [isOpen_eq_of_wires_eq hw] at hc
  exact ⟨hlt, hc⟩

theorem strand_eq_empty_iff {i : Nat} : m.strand i = .empty ↔
    (∀ job ∈ m.pool.waiting, job.flight? i = none) ∧
    (∀ timer ∈ m.timers, timer.alarm.flight? i = none) ∧
    (∀ timer ∈ m.timers, timer.alarm.delivery? i = none) ∧
    (∀ e ∈ m.journal, e.dispatch? ≠ some i) := by
  simp only [strand, Strand.empty, Strand.mk.injEq, Multiset.coe_add, Multiset.coe_eq_zero,
    List.append_eq_nil_iff, List.filterMap_eq_nil_iff, List.filter_eq_nil_iff, decide_eq_true_eq,
    and_assoc, ne_eq]

theorem Sane.of_subset (h : m.Sane) (hwaiting : ∀ job ∈ m'.pool.waiting, job ∈ m.pool.waiting)
    (htimers : ∀ timer ∈ m'.timers, timer ∈ m.timers) (hwires : m'.wires = m.wires)
    (hjournal : m'.journal = m.journal) (hpatterns : m'.patterns = m.patterns)
    (hdispatches : m'.dispatches = m.dispatches) : m'.Sane where
  fresh i hi := by
    rw [hdispatches] at hi
    have ⟨hjobs, hflights, hdeliveries, hevents⟩ := strand_eq_empty_iff.mp (h.fresh i hi)
    rw [← hjournal] at hevents
    exact strand_eq_empty_iff.mpr ⟨fun job hmem => hjobs job (hwaiting job hmem),
      fun timer hmem => hflights timer (htimers timer hmem),
      fun timer hmem => hdeliveries timer (htimers timer hmem), hevents⟩
  honest := h.honest.of_same hwires hjournal
  patterns := by
    rw [hpatterns]
    exact h.patterns
  flights f hf := by
    have hold : m.Holds f := by
      cases f with
      | queued job => exact hwaiting job hf
      | parked s closes outer r =>
        obtain ⟨due, hmem⟩ := hf
        exact ⟨due, htimers _ hmem⟩
    have hfit := h.flights f hold
    refine ⟨?_, ?_, hfit.line⟩
    . rw [hwires]
      exact hfit.channel
    . rw [hdispatches]
      exact hfit.owner

theorem SameWork.holds (h : m.SameWork m') (hf : m'.Holds f) : m.Holds f := by
  cases f with
  | queued job =>
    simp only [Holds, h.waiting] at hf
    exact hf
  | parked s closes outer r =>
    simp only [Holds, h.timers] at hf
    exact hf

theorem holds_of_submit {job : Job} (hf : (m.submit job).Holds f) :
    m.Holds f ∨ f = .queued job := by
  cases f with
  | queued other =>
    cases List.mem_append.mp hf with
    | inl hold => exact .inl hold
    | inr hnew =>
      rw [List.mem_singleton.mp hnew]
      exact .inr rfl
  | parked s closes outer r => exact .inl hf

theorem holds_of_schedule {after : Nat} {alarm : Alarm} (hf : (m.schedule after alarm).Holds f) :
    m.Holds f ∨ ∃ s closes outer r, alarm = .resolve (.registered s) closes outer r ∧
      f = .parked s closes outer r := by
  cases f with
  | queued other => exact .inl hf
  | parked s closes outer r =>
    obtain ⟨due, hmem⟩ := hf
    cases List.mem_append.mp hmem with
    | inl hold => exact .inl ⟨due, hold⟩
    | inr hnew =>
      have heq := List.mem_singleton.mp hnew
      injection heq with _ halarm
      exact .inr ⟨s, closes, outer, r, halarm.symm, rfl⟩

theorem Act.holds (h : Act who m m') (hf : m'.Holds f) :
    m.Holds f ∨
      ∃ (d : Dispatch) (chain : HandlerChain),
        f = .queued (.step (d.start chain)) ∧ m.Fits (d.start chain) ∧ who d.id := by
  cases h with
  | log hb ho => exact .inl hf
  | close id => exact .inl hf
  | record id sent => exact .inl hf
  | connect wire hw => exact .inl hf
  | count hw => exact .inl hf
  | tune h => exact .inl (h.holds hf)
  | @start d chain ho hc =>
    cases holds_of_submit hf with
    | inl hold => exact .inl hold
    | inr hnew =>
      refine .inr ⟨d, chain, hnew, ⟨hc, ?_, ?_⟩, (ho d.id rfl).1⟩
      . intro other hother
        cases hother
        exact (ho d.id rfl).2
      . intro other hother
        cases hother
        rfl
  | postpone after channel outer r ho =>
    cases holds_of_schedule hf with
    | inl hold => exact .inl hold
    | inr hnew =>
      obtain ⟨_, _, _, _, halarm, _⟩ := hnew
      cases halarm

theorem Act.sane (h : Act who m m') (hm : m.Sane) : m'.Sane where
  fresh := h.fresh hm.fresh
  honest := h.honest hm.honest
  patterns := h.grows.patterns hm.patterns
  flights f hf := by
    cases h.holds hf with
    | inl hold => exact (hm.flights f hold).of_grows h.grows
    | inr hnew =>
      obtain ⟨d, chain, rfl, hfit, -⟩ := hnew
      exact hfit.of_grows h.grows

theorem Acts.sane (h : Acts who m m') (hm : m.Sane) : m'.Sane := by
  induction h with
  | refl => exact hm
  | tail _ hlast ih => exact hlast.sane ih

theorem Acts.holds (h : Acts who m m') (hf : m'.Holds f) :
    m.Holds f ∨
      ∃ (d : Dispatch) (chain : HandlerChain), f = .queued (.step (d.start chain)) ∧ who d.id := by
  induction h with
  | refl => exact .inl hf
  | tail _ hlast ih =>
    cases hlast.holds hf with
    | inl hold => exact ih hold
    | inr hnew =>
      obtain ⟨d, chain, heq, -, hwho⟩ := hnew
      exact .inr ⟨d, chain, heq, hwho⟩

theorem Acts.holds_of_nobody (h : Acts (fun _ => False) m m') (hf : m'.Holds f) : m.Holds f := by
  cases h.holds hf with
  | inl hold => exact hold
  | inr hnew =>
    obtain ⟨_, _, _, hwho⟩ := hnew
    exact hwho.elim

theorem grows_submit (job : Job) : m.Grows (m.submit job) := { Grows.refl (m := m) with }

theorem grows_schedule (after : Nat) (alarm : Alarm) : m.Grows (m.schedule after alarm) :=
  { Grows.refl (m := m) with }

theorem Sane.submit {job : Job} (h : m.Sane) (hfit : m.Fits job.run) : (m.submit job).Sane where
  fresh i hi := by
    have hne : job.run.owner.id? ≠ some i :=
      fun hown => Nat.not_lt_of_le hi (hfit.id_lt hown)
    rw [strand_submit_of_ne hne]
    exact h.fresh i hi
  honest := h.honest.of_same rfl rfl
  patterns := h.patterns
  flights f hf := by
    cases holds_of_submit hf with
    | inl hold => exact (h.flights f hold).of_grows (grows_submit job)
    | inr hnew =>
      subst hnew
      exact hfit.of_grows (grows_submit job)

theorem Sane.park {s : Suspension} (h : m.Sane) (hfit : m.Fits s.run) (after : Nat) (closes : Bool)
    (outer : ChannelId) (r : Resolved) :
    (m.schedule after (.resolve (.registered s) closes outer r)).Sane where
  fresh i hi := by
    have hne : s.run.owner.id? ≠ some i := fun hown => Nat.not_lt_of_le hi (hfit.id_lt hown)
    rw [strand_schedule_resolve_of_ne hne]
    exact h.fresh i hi
  honest := h.honest.of_same rfl rfl
  patterns := h.patterns
  flights f hf := by
    cases holds_of_schedule hf with
    | inl hold => exact (h.flights f hold).of_grows (grows_schedule _ _)
    | inr hnew =>
      obtain ⟨_, _, _, _, halarm, rfl⟩ := hnew
      cases halarm
      exact hfit.of_grows (grows_schedule _ _)

theorem suspend_cases (s : Suspension) (plan : DeferralPlan) :
    (∃ after,
      m.suspend s plan
        =
      m.schedule after (.resolve (.registered s) plan.closes s.run.outer plan.resolved) ∧
      s.flight plan = .parked s plan.closes s.run.outer plan.resolved) ∨
    (∃ closed, Acts (fun _ => False) m closed ∧
      m.suspend s plan = closed.submit (.resume s plan.resolved) ∧
      s.flight plan = .queued (.resume s plan.resolved)) := by
  unfold suspend Suspension.flight
  cases plan.after with
  | some after => exact .inl ⟨after, rfl, rfl⟩
  | none =>
    refine .inr ⟨if plan.closes then m.close s.run.outer else m, ?_, rfl, rfl⟩
    split
    . exact acts_close s.run.outer
    . exact .refl

theorem grows_suspend (s : Suspension) (plan : DeferralPlan) : m.Grows (m.suspend s plan) := by
  cases suspend_cases (m := m) s plan with
  | inl hpark =>
    obtain ⟨after, heq, -⟩ := hpark
    rw [heq]
    exact grows_schedule _ _
  | inr hqueue =>
    obtain ⟨closed, hclosed, heq, -⟩ := hqueue
    rw [heq]
    exact hclosed.grows.trans (grows_submit _)

theorem Sane.suspend {s : Suspension} (h : m.Sane) (hfit : m.Fits s.run) (plan : DeferralPlan) :
    (m.suspend s plan).Sane := by
  cases suspend_cases (m := m) s plan with
  | inl hpark =>
    obtain ⟨after, heq, -⟩ := hpark
    rw [heq]
    exact h.park hfit _ _ _ _
  | inr hqueue =>
    obtain ⟨closed, hclosed, heq, -⟩ := hqueue
    rw [heq]
    exact (hclosed.sane h).submit (hfit.of_grows hclosed.grows)

theorem holds_of_suspend {s : Suspension} {plan : DeferralPlan} (hf : (m.suspend s plan).Holds f) :
    m.Holds f ∨ f = s.flight plan := by
  cases suspend_cases (m := m) s plan with
  | inl hpark =>
    obtain ⟨after, heq, hflight⟩ := hpark
    rw [heq] at hf
    cases holds_of_schedule hf with
    | inl hold => exact .inl hold
    | inr hnew =>
      obtain ⟨_, _, _, _, halarm, rfl⟩ := hnew
      cases halarm
      exact .inr hflight.symm
  | inr hqueue =>
    obtain ⟨closed, hclosed, heq, hflight⟩ := hqueue
    rw [heq] at hf
    cases holds_of_submit hf with
    | inl hold => exact .inl (hclosed.holds_of_nobody hold)
    | inr hnew => exact .inr (hnew.trans hflight.symm)

variable {owner : Owner}

theorem acts_end {result : ChainResult} (hfit : m.Fits run) (howner : run.owner = owner) :
    Acts (fun i => owner.id? = some i) m (m.complete owner result) := by
  cases owner with
  | caller => exact acts_log trivial .none
  | dispatch d =>
    refine acts_complete ?_ ?_ result
    . intro i hi
      cases hi
      exact ⟨rfl, hfit.owner d howner⟩
    . rw [← hfit.line d howner]
      exact hfit.channel

theorem acts_escape {evaluated : Nat} (hfit : m.Fits run) (howner : run.owner = owner) :
    Acts (fun i => owner.id? = some i) m
      ((m.log (.escaped owner.id?)).complete owner (.abandoned evaluated)) := by
  have hlog : Acts (fun i => owner.id? = some i) m (m.log (.escaped owner.id?)) := by
    refine acts_log trivial ?_
    intro i hi
    rw [← howner] at hi
    exact ⟨howner ▸ hi, hfit.id_lt hi⟩
  exact hlog.trans (acts_end (hfit.of_grows hlog.grows) howner)

variable {p : Progress} {evaluated : Nat}

theorem grows_proceed (hfit : m.Fits run) (howner : run.owner = owner) :
    m.Grows (m.proceed owner evaluated p).1 := by
  cases p with
  | continues later => exact grows_submit _
  | suspended s plan => exact grows_suspend s plan
  | ended result => exact (acts_end hfit howner).grows
  | escaped => exact (acts_escape hfit howner).grows

theorem Sane.proceed (h : m.Sane) (hfit : m.Fits run) (howner : run.owner = owner)
    (hp : p.Of run) : (m.proceed owner evaluated p).1.Sane := by
  cases p with
  | continues later => exact h.submit (hfit.of_precedes hp)
  | suspended s plan => exact h.suspend (hfit.of_precedes hp.precedes) plan
  | ended result => exact (acts_end hfit howner).sane h
  | escaped => exact (acts_escape hfit howner).sane h

theorem holds_of_proceed (hfit : m.Fits run) (howner : run.owner = owner)
    (hf : (m.proceed owner evaluated p).1.Holds f) :
    m.Holds f ∨ p.flight? = some f ∨
      ∃ (d : Dispatch) (chain : HandlerChain), f = .queued (.step (d.start chain)) := by
  have hacts : ∀ {m'' : Machine}, Acts (fun i => owner.id? = some i) m m'' → m''.Holds f →
      m.Holds f ∨ p.flight? = some f ∨
        ∃ (d : Dispatch) (chain : HandlerChain), f = .queued (.step (d.start chain)) := by
    intro m'' hacts hf
    cases hacts.holds hf with
    | inl hold => exact .inl hold
    | inr hnew =>
      obtain ⟨d, chain, heq, -⟩ := hnew
      exact .inr (.inr ⟨d, chain, heq⟩)
  cases p with
  | continues later =>
    cases holds_of_submit hf with
    | inl hold => exact .inl hold
    | inr hnew => exact .inr (.inl (congrArg some hnew.symm))
  | suspended s plan =>
    cases holds_of_suspend hf with
    | inl hold => exact .inl hold
    | inr hnew => exact .inr (.inl (congrArg some hnew.symm))
  | ended result => exact hacts (acts_end hfit howner) hf
  | escaped => exact hacts (acts_escape hfit howner) hf

variable {job : Job}

theorem acts_turn_of_fits (hfit : m.Fits job.run) :
    Acts (fun i => job.run.owner.id? = some i ∨ m.dispatches ≤ i) m (m.turn job).1 := by
  refine acts_turn ?_ (fun _ hi => .inr hi)
  intro i hi
  exact ⟨.inl hi, hfit.id_lt hi⟩

theorem grows_work (hfit : m.Fits job.run) : m.Grows (m.work job).1 := by
  have hturn := (acts_turn_of_fits hfit).grows
  exact hturn.trans (grows_proceed (hfit.of_grows hturn) rfl)

theorem Sane.work (h : m.Sane) (hfit : m.Fits job.run) : (m.work job).1.Sane := by
  have hturn := acts_turn_of_fits hfit
  have hp := keeps_progress_of (keeps_turn (h.knows hfit))
  exact (hturn.sane h).proceed (hfit.of_grows hturn.grows) rfl hp

theorem holds_of_work (hfit : m.Fits job.run) (hf : (m.work job).1.Holds f) :
    m.Holds f ∨ (m.turn job).2.flight? = some f ∨
      ∃ (d : Dispatch) (chain : HandlerChain), f = .queued (.step (d.start chain)) := by
  have hturn := acts_turn_of_fits hfit
  cases holds_of_proceed (hfit.of_grows hturn.grows) rfl hf with
  | inr hnew => exact .inr hnew
  | inl hold =>
    cases hturn.holds hold with
    | inl hold => exact .inl hold
    | inr hnew =>
      obtain ⟨d, chain, heq, -⟩ := hnew
      exact .inr (.inr ⟨d, chain, heq⟩)

end Machine
end PageDispatch
