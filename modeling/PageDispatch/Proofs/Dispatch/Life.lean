import PageDispatch.Proofs.Machine.Execution

/-!
This module contains what a step of a machine can do to one dispatch: nothing, or a job of its own,
or the wake of its parked run, or the end of the delay of its response.
-/

namespace PageDispatch
namespace Machine

inductive Affects (m m' : Machine) (i : Nat) : Prop
  | idle (h : m'.strand i = m.strand i)
  | worked {started : Machine} {job : Job} {d : Dispatch} (decorators : List Decorator)
    (hs : m.strand i = (started.strand i).fly (.queued job)) (hid : d.id = i)
    (howner : job.run.owner = .dispatch d) (hbefore : m.decorators <+: decorators)
    (hafter : decorators <+: m'.decorators)
    (hmeets : started.Meets m' d (job.prospect m.settings decorators d))
    (hstart : m.startJob? = some (job, started))
    (hturn : (started.turn job).1.decorators = decorators)
  | woke {s : Suspension} {closes : Bool} {outer : ChannelId} {r : Resolved} {rest : Strand}
    (hs : m.strand i = rest.fly (.parked s closes outer r))
    (hs' : m'.strand i = rest.fly (.queued (.resume s r)))
  | sent {channel : ChannelId} {r : Response} {rest : Strand}
    (hs : m.strand i = rest.owe channel r)
    (hs' : m'.strand i = rest.note [.sending i channel r])
  | withheld {channel : ChannelId} {r : Response} {rest : Strand}
    (hs : m.strand i = rest.owe channel r)
    (hs' : m'.strand i = rest.note [.withheld i channel r])
    (hc : m'.isOpen channel = false)

variable {m m' m'' : Machine} {i : Nat} {job : Job} {d : Dispatch} {told : Prospect}

theorem Meets.of_sameWork (h : m.Meets m' d told) (hs : m'.SameWork m'') : m.Meets m'' d told := by
  unfold Meets at h ⊢
  rw [hs.strand_eq, isOpen_eq_of_wires_eq hs.wires]
  exact h

theorem strand_suspend_of_ne {s : Suspension} {plan : DeferralPlan}
    (h : s.run.owner.id? ≠ some i) : (m.suspend s plan).strand i = m.strand i := by
  cases suspend_cases (m := m) s plan with
  | inl hpark =>
    obtain ⟨after, heq, -⟩ := hpark
    rw [heq, strand_schedule_resolve_of_ne h]
  | inr hqueue =>
    obtain ⟨closed, hclosed, heq, -⟩ := hqueue
    rw [heq, ← hclosed.strand_eq (i := i) id]
    exact strand_submit_of_ne h

theorem strand_work_of_ne (hk : m.Sane) (hfit : m.Fits job.run)
    (hne : job.run.owner.id? ≠ some i) (hi : i < m.dispatches) :
    (m.work job).1.strand i = m.strand i := by
  have hturn := acts_turn_of_fits hfit
  have hkeeps := keeps_progress_of (keeps_turn (hk.knows hfit))
  have hfit' := hfit.of_grows hturn.grows
  have hstrand : (m.turn job).1.strand i = m.strand i := by
    apply hturn.strand_eq
    intro hwho
    cases hwho with
    | inl hown => exact hne hown
    | inr hle => exact Nat.not_lt_of_le hle hi
  rw [← hstrand]
  unfold work
  dsimp only
  generalize m.turn job = done at hkeeps hfit'
  obtain ⟨turned, p⟩ := done
  cases p with
  | continues later =>
    refine strand_submit_of_ne ?_
    rw [← hkeeps.owner] at hne
    exact hne
  | suspended s plan =>
    refine strand_suspend_of_ne ?_
    rw [← hkeeps.owner] at hne
    exact hne
  | ended result => exact (acts_end hfit' rfl).strand_eq hne
  | escaped => exact (acts_escape hfit' rfl).strand_eq hne

theorem affects_work (hm : m.Sane) (hi : i < m.dispatches) (h : m.runJob? = some m') :
    m.Affects m' i := by
  obtain ⟨job, started, hstart, rfl⟩ := exists_work_of_runJob? h
  have hs := hm.startJob? hstart
  have hg := grows_startJob? hstart
  have hfit := hm.fits_startJob? hstart
  have hend := @sameWork_endJob (started.work job).1 (started.work job).2
  cases Decidable.em (job.run.owner.id? = some i) with
  | inl hid =>
    cases hown : job.run.owner with
    | caller =>
      rw [hown] at hid
      cases hid
    | dispatch d =>
      have hmeets := (meets_work (hs.knows hfit) hown (hfit.line d hown)).of_sameWork hend
      have hturn := (acts_turn_of_fits hfit).grows
      -- decorators that the job adds itself count for the pages that it goes on to
      rw [hg.settings] at hmeets
      apply Affects.worked _ (strand_startJob?_of_eq hstart hid) _ hown _ _ hmeets hstart rfl
      . rw [hown] at hid
        injection hid
      . apply hg.decorators.trans hturn.decorators
      . apply (grows_proceed (hfit.of_grows hturn) rfl).decorators.trans hend.decorators
  | inr hne =>
    apply Affects.idle
    rw [hend.strand_eq]
    rw [strand_work_of_ne hs hfit hne (Nat.lt_of_lt_of_le hi hg.dispatches)]
    apply strand_startJob?_of_ne hstart hne

section Ring

variable {before after : List Timer} {timer : Timer} {now : Nat}

theorem strand_takeTimer (now : Nat) (h : m.timers = before ++ timer :: after) : m.strand i
      =
    let rest := ({ m with timers := before ++ after, clock := now }).strand i
    { flights := rest.flights + (timer.alarm.flight? i).toList
      due := rest.due + (timer.alarm.delivery? i).toList
      events := rest.events } := by
  have hperm : m.timers.Perm (before ++ after ++ [timer]) := by
    rw [h]
    exact List.perm_middle.trans (List.perm_append_singleton _ _).symm
  have hsingle : ∀ {β : Type} (g : Timer → Option β),
      [timer].filterMap g = (g timer).toList := by
    intro β g
    cases hg : g timer with
    | none => simp [hg]
    | some b => simp [hg]
  have hmap : ∀ {β : Type} (g : Timer → Option β), (↑(m.timers.filterMap g) : Multiset β)
      = ↑((before ++ after).filterMap g) + ↑(g timer).toList := by
    intro β g
    rw [Multiset.coe_add, ← hsingle, ← List.filterMap_append]
    exact Multiset.coe_eq_coe.mpr (hperm.filterMap g)
  simp only [strand, hmap, add_assoc]

theorem affects_resume {waited closed : Machine} {s : Suspension} {closes : Bool}
    {outer : ChannelId} {r : Resolved} (hclosed : Acts (fun _ => False) waited closed)
    (hstrand : m.strand i =
      { flights := (waited.strand i).flights
          + ((Alarm.resolve (.registered s) closes outer r).flight? i).toList
        due := (waited.strand i).due
        events := (waited.strand i).events }) : m.Affects (closed.submit (.resume s r)) i := by
  have hsame := hclosed.strand_eq (i := i) id
  cases Decidable.em (s.run.owner.id? = some i) with
  | inl hown =>
    have hs : m.strand i = (waited.strand i).fly (.parked s closes outer r) := by
      rw [hstrand]
      simp [Alarm.flight?, hown, Strand.fly]
    have hsubmit : (closed.submit (.resume s r)).strand i
        = (closed.strand i).fly (.queued (.resume s r)) := strand_submit_of_eq hown
    apply Affects.woke hs
    rw [hsubmit]
    rw [hsame]
  | inr hown =>
    have hsubmit : (closed.submit (.resume s r)).strand i = closed.strand i :=
      strand_submit_of_ne hown
    apply Affects.idle
    rw [hsubmit]
    rw [hsame]
    rw [hstrand]
    simp [Alarm.flight?, hown]

theorem affects_sendNow {waited : Machine} {j : Nat} {channel outer : ChannelId} {r : Response}
    (hlt : j < waited.dispatches)
    (hstrand : m.strand i =
      { flights := (waited.strand i).flights
        due := (waited.strand i).due
          + ((Alarm.deliver j channel outer r).delivery? i).toList
        events := (waited.strand i).events }) : m.Affects (waited.sendNow j channel outer r) i := by
  cases Nat.decEq j i with
  | isTrue hj =>
    subst hj
    have hs : m.strand j = (waited.strand j).owe channel r := by
      rw [hstrand]
      simp [Alarm.delivery?, Strand.owe]
    cases hopen : waited.isOpen channel with
    | true =>
      apply Affects.sent hs
      apply strand_sendNow_of_open hopen
    | false =>
      rw [sendNow_of_closed hopen]
      exact .withheld hs (strand_log_of_eq rfl) hopen
  | isFalse hj =>
    have hsend := @acts_sendNow waited (fun other => other = j) outer j
      (fun _ hi => ⟨(Option.some.inj hi).symm, (Option.some.inj hi) ▸ hlt⟩) channel r
    apply Affects.idle
    rw [hsend.strand_eq (fun heq => hj heq.symm)]
    rw [hstrand]
    simp [Alarm.delivery?, hj]

theorem affects_ring (hm : m.Sane) (now : Nat) (h : m.timers = before ++ timer :: after) :
    m.Affects (({ m with timers := before ++ after, clock := now }).ring timer.alarm) i := by
  have hstrand := @strand_takeTimer m i before after timer now h
  have hmem : timer ∈ m.timers := by
    rw [h]
    simp
  have hdispatches : ({ m with timers := before ++ after, clock := now }).dispatches
      = m.dispatches := rfl
  -- from here on it does not matter how the timer was taken out of the others
  generalize { m with timers := before ++ after, clock := now } = waited at hstrand hdispatches
  dsimp only at hstrand
  obtain hresume | hdelayed | hother := ring_cases waited timer.alarm
  . obtain ⟨s, closes, outer, r, closed, halarm, hclosed, heq⟩ := hresume
    rw [halarm] at hstrand
    rw [heq]
    apply @affects_resume m i waited closed s closes outer r hclosed
    rw [hstrand]
    simp [Alarm.delivery?]
  . obtain ⟨j, channel, outer, r, halarm, heq⟩ := hdelayed
    have hlt := lt_of_deliver_mem hm hmem halarm
    rw [← hdispatches] at hlt
    rw [halarm] at hstrand
    rw [heq]
    apply @affects_sendNow m i waited j channel outer r hlt
    rw [hstrand]
    simp [Alarm.flight?]
  . -- a timer of another kind belongs to no dispatch
    obtain ⟨hnone, hacts⟩ := hother
    apply Affects.idle
    rw [hacts.strand_eq id]
    rw [hstrand]
    simp [hnone i]

end Ring

/-- What a step can do to a dispatch that was started before. -/
theorem Step.affects (h : m.Step m') (hm : m.Sane) (hi : i < m.dispatches) : m.Affects m' i := by
  cases h with
  | work h => exact affects_work hm hi h
  | @reorder waiting hperm =>
    refine .idle ?_
    have hflights : (↑(waiting.filterMap (Job.flight? i)) : Multiset Flight)
        = ↑(m.pool.waiting.filterMap (Job.flight? i)) :=
      Multiset.coe_eq_coe.mpr (hperm.filterMap _)
    simp only [strand, hflights]
  | ring now htimers => exact affects_ring hm now htimers
  | @dispatch channel request hc =>
    have hacts := @acts_dispatch m (fun j => m.dispatches ≤ j) channel channel (Nat.le_refl _) hc
      request false
    exact .idle (hacts.strand_eq (Nat.not_le_of_lt hi))
  | runChain chain context hc =>
    apply Affects.idle
    apply strand_submit_of_ne
    intro heq
    cases heq
  | @runFailedPage channel page context e hc =>
    have hacts := @acts_runFailedPage m (fun _ => False) channel page context e
    exact .idle (hacts.strand_eq id)
  | connect wire hw => exact .idle rfl
  | close id =>
    have hacts := @acts_close m (fun _ => False) id
    exact .idle (hacts.strand_eq (fun h => h))
  | registerPage page => exact .idle rfl
  | addDecorator decorator => exact .idle rfl

end Machine
end PageDispatch
