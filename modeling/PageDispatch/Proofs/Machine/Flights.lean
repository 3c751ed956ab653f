import PageDispatch.Proofs.Machine.Execution

/-!
This module contains the flights of a machine, whoever they belong to: a job moves its run to its
next flight or ends it, the wake of a parked run queues it again, and everything else only adds
first flights of new runs.
-/

namespace PageDispatch

namespace Flight

/-- Whether a flight is the first one of its run. -/
def IsFirst (f : Flight) : Prop :=
  ∃ chain context channel outer owner,
    f = .queued (.step (.ofChain chain context channel outer owner))

end Flight

namespace Alarm

def parked? : Alarm → Option Flight
  | resolve (.registered s) closes outer r => some (.parked s closes outer r)
  | _ => none

end Alarm

namespace Machine

/-- The runs that wait for their next job or for a resolution. -/
def inFlight (m : Machine) : Multiset Flight :=
  ↑(m.pool.waiting.map Flight.queued) + ↑(m.timers.filterMap fun timer => timer.alarm.parked?)

variable {m m' : Machine} {who : Nat → Prop} {job : Job} {started : Machine}

theorem mem_inFlight_iff {f : Flight} : f ∈ m.inFlight ↔ m.Holds f := by
  unfold inFlight
  rw [Multiset.mem_add, Multiset.mem_coe, Multiset.mem_coe]
  cases f with
  | queued job =>
    constructor
    . intro h
      obtain ⟨other, hmem, heq⟩ | hparked := h.imp List.mem_map.mp List.mem_filterMap.mp
      . cases heq
        exact hmem
      . obtain ⟨timer, -, heq⟩ := hparked
        unfold Alarm.parked? at heq
        split at heq <;> cases heq
    . intro h
      exact .inl (List.mem_map_of_mem h)
  | parked s closes outer r =>
    constructor
    . intro h
      obtain ⟨job, -, heq⟩ | ⟨⟨due, alarm⟩, hmem, heq⟩ :=
        h.imp List.mem_map.mp List.mem_filterMap.mp
      . cases heq
      . unfold Alarm.parked? at heq
        dsimp only at heq
        split at heq
        . cases heq
          exact ⟨due, hmem⟩
        . cases heq
    . intro h
      obtain ⟨due, hmem⟩ := h
      exact .inr (List.mem_filterMap.mpr ⟨_, hmem, rfl⟩)

theorem inFlight_eq (hwaiting : m'.pool.waiting = m.pool.waiting) (htimers : m'.timers = m.timers) :
    m'.inFlight = m.inFlight := by
  rw [inFlight, hwaiting, htimers]
  rfl

theorem inFlight_submit (job : Job) : (m.submit job).inFlight = m.inFlight + {.queued job} := by
  simp only [inFlight, submit, Pool.waiting_submit, List.map_append, List.map_cons, List.map_nil,
    ← Multiset.coe_add, Multiset.coe_singleton, add_right_comm]

theorem inFlight_schedule (after : Nat) (alarm : Alarm) :
    (m.schedule after alarm).inFlight = m.inFlight + ↑alarm.parked?.toList := by
  simp only [inFlight, schedule, List.filterMap_append, ← Multiset.coe_add, add_assoc]
  rfl

theorem Act.inFlight_eq_add (h : Act who m m') :
    ∃ fresh : List Flight, (∀ f ∈ fresh, f.IsFirst ∧ ∃ i, who i) ∧
      m'.inFlight = m.inFlight + ↑fresh := by
  have hsame : m'.inFlight = m.inFlight → ∃ fresh : List Flight,
      (∀ f ∈ fresh, f.IsFirst ∧ ∃ i, who i) ∧ m'.inFlight = m.inFlight + ↑fresh := by
    intro heq
    refine ⟨[], List.forall_mem_nil _, ?_⟩
    rw [heq, Multiset.coe_nil, add_zero]
  cases h with
  | @start d chain ho hc =>
    refine ⟨[.queued (.step (d.start chain))], ?_, inFlight_submit _⟩
    intro f hf
    rw [List.mem_singleton.mp hf]
    exact ⟨⟨_, _, _, _, _, rfl⟩, d.id, (ho d.id rfl).1⟩
  | postpone after channel outer r ho =>
    apply hsame
    rw [inFlight_schedule]
    exact add_zero _
  | log hb ho => exact hsame (inFlight_eq rfl rfl)
  | close id => exact hsame (inFlight_eq rfl rfl)
  | record id sent => exact hsame (inFlight_eq rfl rfl)
  | connect wire hw => exact hsame (inFlight_eq rfl rfl)
  | count hw => exact hsame (inFlight_eq rfl rfl)
  | tune h => exact hsame (inFlight_eq h.waiting h.timers)

theorem Acts.inFlight_eq_add (h : Acts who m m') :
    ∃ fresh : List Flight, (∀ f ∈ fresh, f.IsFirst ∧ ∃ i, who i) ∧
      m'.inFlight = m.inFlight + ↑fresh := by
  induction h with
  | refl =>
    refine ⟨[], List.forall_mem_nil _, ?_⟩
    rw [Multiset.coe_nil, add_zero]
  | tail _ hlast ih =>
    obtain ⟨fresh, hfresh, heq⟩ := ih
    obtain ⟨last, hlast, heq'⟩ := hlast.inFlight_eq_add
    refine ⟨fresh ++ last, List.forall_mem_append.mpr ⟨hfresh, hlast⟩, ?_⟩
    rw [heq', heq, add_assoc, Multiset.coe_add]

theorem Acts.inFlight_of_nobody (h : Acts (fun _ => False) m m') : m'.inFlight = m.inFlight := by
  obtain ⟨fresh, hfresh, heq⟩ := h.inFlight_eq_add
  have hnil : fresh = [] := by
    apply List.eq_nil_iff_forall_not_mem.mpr
    intro f hf
    obtain ⟨-, i, hi⟩ := hfresh f hf
    exact hi
  rw [heq, hnil, Multiset.coe_nil, add_zero]

theorem inFlight_startJob? (h : m.startJob? = some (job, started)) :
    m.inFlight = started.inFlight + {.queued job} := by
  obtain ⟨rest, hwaiting, rfl⟩ := startJob?_eq_some h
  simp only [inFlight, hwaiting, List.map_cons, ← Multiset.cons_coe, ← Multiset.singleton_add]
  rw [add_assoc, add_comm]

theorem inFlight_suspend (s : Suspension) (plan : DeferralPlan) :
    (m.suspend s plan).inFlight = m.inFlight + {s.flight plan} := by
  cases suspend_cases (m := m) s plan with
  | inl hpark =>
    obtain ⟨after, heq, hflight⟩ := hpark
    rw [heq, hflight, inFlight_schedule]
    rfl
  | inr hqueue =>
    obtain ⟨closed, hclosed, heq, hflight⟩ := hqueue
    rw [heq, hflight, inFlight_submit, hclosed.inFlight_of_nobody]

section Proceed

variable {run : Run} {owner : Owner} {evaluated : Nat} {p : Progress} {f : Flight}

/-- A run that goes on has one next flight. -/
theorem inFlight_proceed_of_some (hf : p.flight? = some f) :
    (m.proceed owner evaluated p).1.inFlight = m.inFlight + {f} := by
  cases p with
  | continues later =>
    injection hf with hf
    rw [← hf]
    apply inFlight_submit
  | suspended s plan =>
    injection hf with hf
    rw [← hf]
    apply inFlight_suspend
  | ended result => cases hf
  | escaped => cases hf

theorem inFlight_proceed_of_none (hfit : m.Fits run) (howner : run.owner = owner)
    (hp : p.flight? = none) :
    ∃ fresh : List Flight, (∀ f ∈ fresh, f.IsFirst) ∧
      (m.proceed owner evaluated p).1.inFlight = m.inFlight + ↑fresh := by
  have hacts : ∀ {last : Machine}, Acts (fun i => owner.id? = some i) m last →
      ∃ fresh : List Flight, (∀ f ∈ fresh, f.IsFirst) ∧ last.inFlight = m.inFlight + ↑fresh := by
    intro last hacts
    obtain ⟨fresh, hfresh, heq⟩ := hacts.inFlight_eq_add
    exact ⟨fresh, fun f hf => (hfresh f hf).1, heq⟩
  cases p with
  | continues later => cases hp
  | suspended s plan => cases hp
  | ended result => exact hacts (acts_end hfit howner)
  | escaped => exact hacts (acts_escape hfit howner)

end Proceed

theorem inFlight_endJob (panicked : Bool) : (m.endJob panicked).inFlight = m.inFlight :=
  inFlight_eq (sameWork_endJob panicked).waiting (sameWork_endJob (m := m) panicked).timers

/-- A run that does not go on is completed. -/
theorem work_of_none (hp : (m.turn job).2.flight? = none) :
    ∃ (last : Machine) (result : ChainResult),
      (m.work job).1 = last.complete job.run.owner result := by
  unfold work
  dsimp only
  generalize m.turn job = done at hp
  obtain ⟨turned, p⟩ := done
  cases p with
  | continues later => cases hp
  | suspended s plan => cases hp
  | ended result => exact ⟨turned, result, rfl⟩
  | escaped => exact ⟨_, _, rfl⟩

/-- A job leaves the next flight of its run, if it goes on, and first flights of other runs. -/
theorem inFlight_work (hfit : m.Fits job.run) :
    ∃ fresh : List Flight, (∀ f ∈ fresh, f.IsFirst) ∧
      (m.work job).1.inFlight = m.inFlight + ↑(m.turn job).2.flight?.toList + ↑fresh := by
  have hturn := acts_turn_of_fits hfit
  obtain ⟨fresh, hfresh, heq⟩ := hturn.inFlight_eq_add
  have hfit' := hfit.of_grows hturn.grows
  have hfresh' : ∀ f ∈ fresh, f.IsFirst := fun f hf => (hfresh f hf).1
  unfold work
  dsimp only
  generalize m.turn job = done at heq hfit'
  obtain ⟨turned, p⟩ := done
  dsimp only at heq hfit' ⊢
  cases hp : p.flight? with
  | some f =>
    refine ⟨fresh, hfresh', ?_⟩
    rw [inFlight_proceed_of_some hp, heq, add_right_comm]
    rfl
  | none =>
    obtain ⟨more, hmore, heq'⟩ :=
      @inFlight_proceed_of_none turned job.run _ job.evaluated p hfit' rfl hp
    refine ⟨fresh ++ more, List.forall_mem_append.mpr ⟨hfresh', hmore⟩, ?_⟩
    rw [heq', heq, Option.toList_none, Multiset.coe_nil, add_zero, add_assoc, Multiset.coe_add]

section Ring

variable {before after : List Timer} {timer : Timer}

theorem inFlight_takeTimer (now : Nat) (h : m.timers = before ++ timer :: after) :
    m.inFlight
      =
    ({ m with timers := before ++ after, clock := now } : Machine).inFlight
      + ↑timer.alarm.parked?.toList := by
  have hperm : m.timers.Perm (before ++ after ++ [timer]) := by
    rw [h]
    exact List.perm_middle.trans (List.perm_append_singleton _ _).symm
  simp only [inFlight, add_assoc]
  congr 1
  have hmap := Multiset.coe_eq_coe.mpr (hperm.filterMap fun timer => timer.alarm.parked?)
  rw [hmap, List.filterMap_append, ← Multiset.coe_add]
  rfl

theorem inFlight_sendNow (i : Nat) (channel outer : ChannelId) (r : Response) :
    (m.sendNow i channel outer r).inFlight = m.inFlight := by
  cases hopen : m.isOpen channel with
  | false => rw [sendNow_of_closed hopen]; rfl
  | true => rw [(acts_sendNow_of_open hopen).inFlight_of_nobody]; rfl

/-- A timer that holds no run changes no flight. -/
theorem inFlight_ring_of_none (now : Nat) (h : m.timers = before ++ timer :: after)
    (hp : timer.alarm.parked? = none) :
    (({ m with timers := before ++ after, clock := now } : Machine).ring timer.alarm).inFlight
      =
    m.inFlight := by
  rw [inFlight_takeTimer now h, hp, Option.toList_none, Multiset.coe_nil, add_zero]
  generalize { m with timers := before ++ after, clock := now } = waited
  obtain hresume | hdelayed | hother := ring_cases waited timer.alarm
  . obtain ⟨s, closes, outer, r, closed, halarm, hclosed, heq⟩ := hresume
    rw [halarm] at hp
    cases hp
  . obtain ⟨i, channel, outer, r, halarm, heq⟩ := hdelayed
    rw [heq, inFlight_sendNow]
  . exact hother.2.inFlight_of_nobody

/-- A resolution queues the run that waited for it. -/
theorem inFlight_ring_of_registered {s : Suspension} {closes : Bool} {outer : ChannelId}
    {r : Resolved} (now : Nat) (h : m.timers = before ++ timer :: after)
    (halarm : timer.alarm = .resolve (.registered s) closes outer r) :
    ∃ rest : Multiset Flight, m.inFlight = rest + {.parked s closes outer r} ∧
      (({ m with timers := before ++ after, clock := now } : Machine).ring timer.alarm).inFlight
        =
      rest + {.queued (.resume s r)} := by
  rw [inFlight_takeTimer now h, halarm]
  generalize { m with timers := before ++ after, clock := now } = waited
  refine ⟨waited.inFlight, rfl, ?_⟩
  have hclosed : Acts (fun _ => False) waited (if closes then waited.close outer else waited) := by
    split
    . exact acts_close outer
    . exact .refl
  exact (inFlight_submit _).trans (congrArg (· + _) hclosed.inFlight_of_nobody)

end Ring

end Machine
end PageDispatch
