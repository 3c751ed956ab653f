import PageDispatch.Proofs.Dispatch.Life
import PageDispatch.Proofs.Machine.Abreast

/-!
This module contains that channels are apart from each other: whatever is done for a run or a
dispatch leaves a channel alone that neither of them was given.
-/

namespace PageDispatch

/-- Whether a dispatch was given other channels than a certain one. -/
structure Dispatch.Apart (channel : ChannelId) (d : Dispatch) : Prop where
  own : d.channel ≠ channel
  outer : d.outer ≠ channel

structure Run.Apart (channel : ChannelId) (run : Run) : Prop where
  own : run.channel ≠ channel
  outer : run.outer ≠ channel
  owner : ∀ d, run.owner = .dispatch d → d.Apart channel

theorem Run.Apart.of_resembles {channel : ChannelId} {run other : Run} (h : run.Apart channel)
    (hrun : run.Resembles other) : other.Apart channel where
  own := by rw [hrun.channel]; exact h.own
  outer := by rw [hrun.outer]; exact h.outer
  owner d hd := h.owner d (hrun.owner ▸ hd)

namespace Machine

variable {m : Machine} {channel outer : ChannelId}

section Calls

variable (h : outer ≠ channel)

include h

theorem isOpen_close_of_ne : (m.close outer).isOpen channel = m.isOpen channel := by
  rw [isOpen_close, if_neg h]

theorem isOpen_call_of_ne {α : Type} (c : Call α) :
    (m.call outer c).1.isOpen channel = m.isOpen channel := by
  rw [isOpen_call, decide_eq_false h, Bool.and_false, Bool.not_false, Bool.and_true]

theorem isOpen_guarded_of_ne (c : Call Response) :
    (m.guarded outer c).1.isOpen channel = m.isOpen channel := by
  rw [guarded_fst, isOpen_call_of_ne h]

theorem isOpen_closings_of_ne (n : Nat) :
    (n.repeat (fun m => m.close outer) m).isOpen channel = m.isOpen channel := by
  induction n with
  | zero => rfl
  | succ n ih => exact (isOpen_close_of_ne h).trans ih

theorem isOpen_setChannel_of_ne (c : Channel) :
    (m.setChannel outer c).isOpen channel = m.isOpen channel := by
  have hwire : (m.setChannel outer c).wires[channel]? = m.wires[channel]? :=
    List.getElem?_modify_ne _ _ h
  simp only [isOpen, hwire]

end Calls

section Delivery

variable {id : ChannelId} (hid : id ≠ channel) (h : outer ≠ channel)

include hid h

theorem isOpen_transmit_of_ne (wire : Wire) (r : Response) :
    (m.transmit id outer wire r).isOpen channel = m.isOpen channel := by
  have hmid : ∀ (n : Nat) c, (n.repeat (fun m => m.close outer) (m.setChannel id c)).isOpen channel
      = m.isOpen channel := by
    intro n c
    rw [isOpen_closings_of_ne h, isOpen_setChannel_of_ne hid]
  unfold transmit
  split
  . rfl
  . dsimp only
    split
    . apply hmid
    . rw [isOpen_log, hmid]

theorem isOpen_sendNow_of_ne (i : Nat) (r : Response) :
    (m.sendNow i id outer r).isOpen channel = m.isOpen channel := by
  unfold sendNow
  split
  . rfl
  . next wire _ =>
    split
    . have hsend : ((m.log (.sending i id r)).transmit id outer wire r).isOpen channel
          = m.isOpen channel := isOpen_transmit_of_ne hid h wire r
      dsimp only
      split
      . exact (isOpen_close_of_ne hid).trans hsend
      . exact hsend
    . rfl

end Delivery

theorem isOpen_fail_of_ne {run : Run} {unit : String} {position : Option Nat}
    {failure : UnitFailure} {own : Accumulator} (h : run.outer ≠ channel) :
    (m.fail run unit position failure own).1.isOpen channel = m.isOpen channel := by
  rw [fail_fst]
  split
  . exact isOpen_call_of_ne h _
  . rfl

theorem isOpen_decorate_of_ne (h : outer ≠ channel) (context : Context)
    (decorators : List Decorator) (chain : HandlerChain) :
    (m.decorate outer context decorators chain).1.isOpen channel = m.isOpen channel := by
  induction decorators generalizing m chain with
  | nil => rfl
  | cons decorator rest ih =>
    have hcall := @isOpen_call_of_ne m channel outer h _ (decorator.decorate chain.view context)
    unfold decorate
    split
    . next heq =>
      rw [heq] at hcall
      rw [ih, hcall]
    . next heq =>
      rw [heq] at hcall
      exact hcall
    . next heq =>
      rw [heq] at hcall
      exact hcall

section Dispatch

variable {d : Dispatch} (h : d.Apart channel)

include h

theorem isOpen_finishWith_of_apart (disposition : Disposition) (r : Response) :
    (m.finishWith d disposition r).isOpen channel = m.isOpen channel := by
  have hdeliver : (m.deliver d r).isOpen channel = m.isOpen channel := by
    unfold deliver
    split
    . exact isOpen_sendNow_of_ne h.own h.outer _ _
    . rfl
  exact hdeliver

theorem isOpen_notFound_of_apart : (m.notFound d).isOpen channel = m.isOpen channel := by
  unfold notFound
  split
  . refine (isOpen_finishWith_of_apart ⟨h.own, h.outer⟩ _ _).trans ?_
    exact isOpen_guarded_of_ne h.outer _
  . rfl

theorem isOpen_conclude_of_apart (a : Answer) :
    (m.conclude d a).isOpen channel = m.isOpen channel := by
  unfold conclude
  dsimp only
  split
  . exact isOpen_finishWith_of_apart h _ _
  . exact (isOpen_finishWith_of_apart h _ _).trans (isOpen_guarded_of_ne h.outer _)

theorem isOpen_breakOff_of_apart (page : String) (e : CauseChain) :
    (m.breakOff d page e).isOpen channel = m.isOpen channel := by
  have hfail : (m.failPage page d.context d.channel d.outer (.dispatch d) e).1.isOpen channel
      = m.isOpen channel := isOpen_fail_of_ne h.outer
  unfold breakOff
  split
  . next heq =>
    rw [heq] at hfail
    exact (isOpen_conclude_of_apart h _).trans hfail
  . next heq =>
    rw [heq] at hfail
    exact hfail

theorem isOpen_buildChain_of_apart (page : Page) :
    (m.buildChain d page).1.isOpen channel = m.isOpen channel := by
  have hcall := @isOpen_call_of_ne m channel d.outer h.outer _ (page.build d.context)
  rw [buildChain_fst]
  unfold construct
  split
  . next heq =>
    rw [heq] at hcall
    exact (isOpen_decorate_of_ne h.outer _ _ _).trans hcall
  . next heq =>
    rw [heq] at hcall
    exact hcall
  . next heq =>
    rw [heq] at hcall
    exact hcall

theorem isOpen_tryPage_of_apart (page : Page) :
    (m.tryPage d page).isOpen channel = m.isOpen channel := by
  unfold tryPage
  dsimp only
  generalize hnext : ({ m with metrics := _ } : Machine).log _ = next
  have hopen : next.isOpen channel = m.isOpen channel := by
    rw [← hnext]
    rfl
  have hbuild := @isOpen_buildChain_of_apart next channel d h page
  split
  . next heq =>
    rw [heq] at hbuild
    exact hbuild.trans hopen
  . next heq =>
    rw [heq] at hbuild
    exact ((isOpen_breakOff_of_apart h _ _).trans hbuild).trans hopen

theorem isOpen_advance_of_apart : (m.advance d).isOpen channel = m.isOpen channel := by
  unfold advance
  split
  . exact isOpen_notFound_of_apart h
  . exact isOpen_tryPage_of_apart (d := d.trying _) ⟨h.own, h.outer⟩ _

theorem isOpen_shed_of_apart : (m.shed d).isOpen channel = m.isOpen channel := by
  unfold shed
  exact (isOpen_finishWith_of_apart h _ _).trans (isOpen_guarded_of_ne h.outer _)

theorem isOpen_complete_of_apart (result : ChainResult) :
    (m.complete (.dispatch d) result).isOpen channel = m.isOpen channel := by
  cases result with
  | answered a => exact isOpen_conclude_of_apart h a
  | rejected evaluated rejecter => exact isOpen_advance_of_apart h
  | abandoned evaluated => rfl

end Dispatch

theorem isOpen_dispatch_of_ne {id : ChannelId} (hid : id ≠ channel) (h : outer ≠ channel)
    (request : Request) (nested : Bool) :
    (m.dispatch request id outer nested).isOpen channel = m.isOpen channel := by
  have hd : (m.newDispatch request id outer nested).Apart channel := ⟨hid, h⟩
  unfold dispatch
  dsimp only
  generalize m.newDispatch request id outer nested = d at hd
  have hadmitted : (m.receive d).tryAdmit.2.isOpen channel = m.isOpen channel := rfl
  split
  . next heq =>
    rw [heq] at hadmitted
    exact (isOpen_advance_of_apart hd).trans hadmitted
  . next heq =>
    rw [heq] at hadmitted
    exact (isOpen_shed_of_apart hd).trans hadmitted

section Turn

variable {run : Run}

theorem isOpen_perform_of_ne (h : outer ≠ channel) (hlt : channel < m.wires.length)
    (action : UnitAction) : (m.perform outer action).isOpen channel = m.isOpen channel := by
  cases action with
  | signal s =>
    cases s with
    | note value => rfl
    | close => exact isOpen_close_of_ne h
  | registerPage page => rfl
  | addDecorator decorator => rfl
  | dispatch request =>
    exact (isOpen_dispatch_of_ne (Nat.ne_of_gt hlt) h request true).trans
      (isOpen_connect_of_lt hlt)

theorem isOpen_performAll_of_ne (h : outer ≠ channel) (hlt : channel < m.wires.length)
    (actions : List UnitAction) :
    (m.performAll outer actions).isOpen channel = m.isOpen channel := by
  unfold performAll
  induction actions generalizing m with
  | nil => rfl
  | cons action rest ih =>
    have hgrows := (@acts_perform m (fun _ => True) outer (fun _ _ => trivial) action).grows
    rw [List.foldl_cons, ih (Nat.lt_of_lt_of_le hlt hgrows.wires)]
    exact isOpen_perform_of_ne h hlt action

theorem isOpen_failRun_of_ne (h : run.outer ≠ channel) (unit : String) (position : Option Nat)
    (failure : UnitFailure) (own : Accumulator) :
    (m.failRun run unit position failure own).1.isOpen channel = m.isOpen channel := by
  rw [failRun_fst]
  exact isOpen_fail_of_ne h

theorem isOpen_instantiate_of_ne (h : run.outer ≠ channel) (spec : UnitSpec) :
    (m.instantiate run spec).1.isOpen channel = m.isOpen channel := by
  rw [instantiate_fst]
  exact isOpen_call_of_ne h _

theorem isOpen_acting_of_ne (h : run.outer ≠ channel) (hlt : channel < m.wires.length)
    (position : Nat) (u : HandlerUnit) :
    (m.acting run position u).isOpen channel = m.isOpen channel := by
  unfold acting
  split
  . rfl
  . next name _ =>
    exact @isOpen_performAll_of_ne (m.log (.evaluating run.owner.id? position name run.view))
      channel run.outer h hlt _

theorem isOpen_facing_of_ne (hk : m.Knows run) (h : run.outer ≠ channel)
    (hlt : channel < m.wires.length) (position : Nat) (element : ChainElement) :
    (m.facing run position element).isOpen channel = m.isOpen channel := by
  cases element with
  | unit u => exact isOpen_acting_of_ne h hlt position u
  | spec spec =>
    have hg := grows_instantiate hk spec
    have hmade := @isOpen_instantiate_of_ne m channel run h spec
    unfold facing
    dsimp only
    generalize m.instantiate run spec = done at hg hmade
    obtain ⟨made, result⟩ := done
    cases result with
    | ok u => exact (isOpen_acting_of_ne h (Nat.lt_of_lt_of_le hlt hg.wires) _ _).trans hmade
    | error e => exact hmade

theorem isOpen_moment_of_apart {job : Job} (hk : m.Knows job.run) (h : job.run.Apart channel)
    (hlt : channel < m.wires.length) : (m.moment job).isOpen channel = m.isOpen channel := by
  cases job with
  | resume s r => rfl
  | step run =>
    dsimp only [moment]
    split
    . rfl
    . next remnant _ =>
      have hpast : m.Knows (run.past remnant) := ⟨hk.channel, hk.owner, hk.patterns⟩
      exact isOpen_facing_of_ne hpast h.outer hlt _ _

theorem isOpen_respond_of_ne (h : run.outer ≠ channel) (unit : String) (position : Nat)
    (status : Status) (message : Option ResponseMessage) (own : Accumulator) :
    (m.respond run unit position status message own).1.isOpen channel = m.isOpen channel := by
  match message with
  | none => rfl
  | some (.text s) => rfl
  | some (.structured value) =>
    have hcall := @isOpen_call_of_ne m channel run.outer h _ (m.settings.codec value)
    rw [respond_fst]
    split
    . exact (isOpen_failRun_of_ne h _ _ _ _).trans hcall
    . exact hcall

theorem isOpen_take_of_ne (h : run.outer ≠ channel) (v : Ruling) :
    (m.take run v).1.isOpen channel = m.isOpen channel := by
  cases v with
  | decides unit position outcome own =>
    unfold take apply
    dsimp only
    split
    . cases outcome with
      | rejected =>
        dsimp only
        split
        . exact isOpen_failRun_of_ne h _ _ _ _
        . rfl
      | consumed objects locked => rfl
      | respondWith status message => exact isOpen_respond_of_ne h _ _ _ _ _
    . rfl
  | fails unit position failure own => exact isOpen_failRun_of_ne h _ _ _ _
  | defers unit position own plan => rfl
  | runsOut => rfl
  | escapes => rfl

variable {job : Job}

theorem isOpen_turn_of_apart (hk : m.Knows job.run) (h : job.run.Apart channel)
    (hlt : channel < m.wires.length) : (m.turn job).1.isOpen channel = m.isOpen channel := by
  cases Classical.em (m.glance job = .unseen) with
  | inl hg => rw [turn_of_unseen hg]
  | inr hg =>
    have hstance := h.of_resembles (@Job.resembles_stance m.settings job)
    rw [turn_eq hk hg, isOpen_take_of_ne hstance.outer, isOpen_moment_of_apart hk h hlt]

theorem isOpen_suspend_of_ne {s : Suspension} (h : s.run.outer ≠ channel) (plan : DeferralPlan) :
    (m.suspend s plan).isOpen channel = m.isOpen channel := by
  unfold suspend
  cases plan.after with
  | some after => rfl
  | none =>
    cases plan.closes with
    | true => exact isOpen_close_of_ne h
    | false => rfl

theorem isOpen_proceed_of_apart {p : Progress} (h : run.Apart channel) (hp : p.Of run)
    (evaluated : Nat) :
    (m.proceed run.owner evaluated p).1.isOpen channel = m.isOpen channel := by
  have hcomplete : ∀ {m : Machine} result,
      (m.complete run.owner result).isOpen channel = m.isOpen channel := by
    intro m result
    cases howner : run.owner with
    | caller => rfl
    | dispatch d => exact isOpen_complete_of_apart (h.owner d howner) result
  cases p with
  | continues later => rfl
  | suspended s plan => exact isOpen_suspend_of_ne (hp.outer ▸ h.outer) plan
  | ended result => exact hcomplete result
  | escaped => exact hcomplete _

theorem isOpen_work_of_apart (hk : m.Knows job.run) (h : job.run.Apart channel)
    (hlt : channel < m.wires.length) : (m.work job).1.isOpen channel = m.isOpen channel := by
  have hturn := isOpen_turn_of_apart hk h hlt
  have hof := keeps_progress_of (keeps_turn hk)
  unfold work
  dsimp only
  generalize m.turn job = done at hturn hof
  obtain ⟨turned, p⟩ := done
  exact (isOpen_proceed_of_apart h hof _).trans hturn

end Turn

end Machine

def Alarm.channels : Alarm → List ChannelId
  | resolve _ _ outer _ => [outer]
  | deliver _ channel outer _ => [channel, outer]

namespace Machine

variable {m n : Machine} {i : Nat} {channel : ChannelId}

/-- What is done on behalf of others than a certain dispatch, and on other channels than its own. -/
inductive Aside (i : Nat) (channel : ChannelId) (m : Machine) : Machine → Prop
  | work {job : Job} {started : Machine} (h : m.startJob? = some (job, started))
    (hown : job.run.owner.id? ≠ some i) (hapart : job.run.Apart channel) :
    Aside i channel m ((started.work job).1.endJob (started.work job).2)
  | reorder {waiting : List Job} (h : waiting.Perm m.pool.waiting) :
    Aside i channel m { m with pool := { m.pool with waiting } }
  | ring {before after : List Timer} {timer : Timer} (now : Nat)
    (h : m.timers = before ++ timer :: after) (hflight : timer.alarm.flight? i = none)
    (hdelivery : timer.alarm.delivery? i = none) (hapart : channel ∉ timer.alarm.channels) :
    Aside i channel m ({ m with timers := before ++ after, clock := now }.ring timer.alarm)
  | dispatch {id : ChannelId} (request : Request) (h : id < m.wires.length) (hne : id ≠ channel) :
    Aside i channel m (m.dispatch request id id false)
  | runChain {id : ChannelId} (chain : HandlerChain) (context : Context)
    (h : id < m.wires.length) (hne : id ≠ channel) :
    Aside i channel m (m.runChain chain context id)
  | runFailedPage {id : ChannelId} (page : String) (context : Context) (e : CauseChain)
    (h : id < m.wires.length) (hne : id ≠ channel) :
    Aside i channel m (m.runFailedPage page context id e)
  | connect (wire : Wire) (h : wire.channel.isOpen = true) : Aside i channel m (m.connect wire).2
  | close (id : ChannelId) (hne : id ≠ channel) : Aside i channel m (m.close id)
  | registerPage (page : Page) : Aside i channel m (m.registerPage page)

theorem Aside.step (h : m.Aside i channel n) : m.Step n := by
  cases h with
  | work h hown hapart =>
    apply Step.work
    unfold runJob?
    rw [h]
    rfl
  | reorder h => exact .reorder h
  | ring now h hflight hdelivery hapart => exact .ring now h
  | dispatch request h hne => exact .dispatch request h
  | runChain chain context h hne => exact .runChain chain context h
  | runFailedPage page context e h hne => exact .runFailedPage page context e h
  | connect wire h => exact .connect wire h
  | close id hne => exact .close id
  | registerPage page => exact .registerPage page

section Strands

variable {job : Job} {started waited : Machine} {alarm : Alarm}

theorem strand_job_of_ne (hm : m.Sane) (hstart : m.startJob? = some (job, started))
    (hother : job.run.owner.id? ≠ some i) (hi : i < m.dispatches) :
    ((started.work job).1.endJob (started.work job).2).strand i = m.strand i := by
  have hi' := Nat.lt_of_lt_of_le hi (grows_startJob? hstart).dispatches
  rw [(sameWork_endJob _).strand_eq,
    strand_work_of_ne (hm.startJob? hstart) (hm.fits_startJob? hstart) hother hi',
    strand_startJob?_of_ne hstart hother]

theorem strand_ring_of_none
    (hlt : ∀ j channel outer r, alarm = .deliver j channel outer r → j < waited.dispatches)
    (hflight : alarm.flight? i = none) (hdelivery : alarm.delivery? i = none) :
    (waited.ring alarm).strand i = waited.strand i := by
  obtain hresume | hdelayed | hrest := ring_cases waited alarm
  . obtain ⟨s, closes, outer, r, closed, rfl, hclosed, heq⟩ := hresume
    have hother : (Job.resume s r).run.owner.id? ≠ some i := by
      intro hown
      have hparked : s.run.owner.id? = some i := hown
      rw [Alarm.flight?, if_pos hparked] at hflight
      cases hflight
    rw [heq, ← hclosed.strand_eq (i := i) id]
    exact strand_submit_of_ne hother
  . obtain ⟨j, id, outer, r, rfl, heq⟩ := hdelayed
    have hother : j ≠ i := by
      intro hj
      rw [Alarm.delivery?, if_pos hj] at hdelivery
      cases hdelivery
    have hsend := @acts_sendNow waited (fun other => other = j) outer j
      (fun _ hi => ⟨(Option.some.inj hi).symm, (Option.some.inj hi) ▸ hlt _ _ _ _ rfl⟩) id r
    rw [heq, hsend.strand_eq (fun heq => hother heq.symm)]
  . exact hrest.2.strand_eq id

theorem isOpen_ring_of_apart (hapart : channel ∉ alarm.channels) :
    (waited.ring alarm).isOpen channel = waited.isOpen channel := by
  cases alarm with
  | deliver j id outer r =>
    have hid : id ≠ channel := fun heq => hapart (heq ▸ List.mem_cons_self)
    have houter : outer ≠ channel :=
      fun heq => hapart (heq ▸ List.mem_cons_of_mem _ List.mem_cons_self)
    exact isOpen_sendNow_of_ne hid houter j r
  | resolve slot closes outer r =>
    have houter : outer ≠ channel := fun heq => hapart (heq ▸ List.mem_cons_self)
    have hclosing : (if closes then waited.close outer else waited).isOpen channel
        = waited.isOpen channel := by
      cases closes with
      | true => exact isOpen_close_of_ne houter
      | false => rfl
    cases slot <;> exact hclosing

end Strands

/-- What is done aside leaves a dispatch alone, and its channel too. -/
theorem Aside.leaves (h : m.Aside i channel n) (hm : m.Sane) (hi : i < m.dispatches)
    (hlt : channel < m.wires.length) :
    n.strand i = m.strand i ∧ n.isOpen channel = m.isOpen channel := by
  cases h with
  | @work job started h hown hapart =>
    have hg := grows_startJob? h
    have hknows := (hm.startJob? h).knows (hm.fits_startJob? h)
    have hwork := isOpen_work_of_apart hknows hapart (Nat.lt_of_lt_of_le hlt hg.wires)
    refine ⟨strand_job_of_ne hm h hown hi, ?_⟩
    rw [isOpen_eq_of_wires_eq (sameWork_endJob _).wires, hwork]
    obtain ⟨rest, -, rfl⟩ := startJob?_eq_some h
    rfl
  | reorder h =>
    refine ⟨?_, rfl⟩
    simp only [strand]
    rw [Multiset.coe_eq_coe.mpr (h.filterMap _)]
  | @ring before after timer now h hflight hdelivery hapart =>
    have hmem : timer ∈ m.timers := by
      rw [h]
      simp
    have hstrand := @strand_takeTimer m i before after timer now h
    rw [hflight, hdelivery] at hstrand
    refine ⟨?_, isOpen_ring_of_apart hapart⟩
    rw [strand_ring_of_none _ hflight hdelivery, hstrand]
    . simp
    . intro j id outer r halarm
      exact @lt_of_deliver_mem m timer j id outer r hm hmem halarm
  | @dispatch id request h hne =>
    have hacts := @acts_dispatch m (fun j => m.dispatches ≤ j) id id (Nat.le_refl _) h request false
    exact ⟨hacts.strand_eq (Nat.not_le_of_lt hi), isOpen_dispatch_of_ne hne hne request false⟩
  | runChain chain context h hne =>
    refine ⟨?_, rfl⟩
    apply strand_submit_of_ne
    intro heq
    cases heq
  | @runFailedPage id page context e h hne =>
    have hacts := @acts_runFailedPage m (fun _ => False) id page context e
    refine ⟨hacts.strand_eq (fun h => h), ?_⟩
    have hfail : (m.failPage page context id id .caller e).1.isOpen channel = m.isOpen channel :=
      isOpen_fail_of_ne hne
    unfold Machine.runFailedPage
    split
    . next heq =>
      rw [heq] at hfail
      exact hfail
    . next heq =>
      rw [heq] at hfail
      exact hfail
  | connect wire h => exact ⟨rfl, isOpen_connect_of_lt hlt⟩
  | close id hne =>
    have hacts := @acts_close m (fun _ => False) id
    exact ⟨hacts.strand_eq (fun h => h), isOpen_close_of_ne hne⟩
  | registerPage page => exact ⟨rfl, rfl⟩

end Machine
end PageDispatch
