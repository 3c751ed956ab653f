import Mathlib.Algebra.GroupWithZero.Nat
import PageDispatch.Proofs.Machine.Reopening

/-!
This module contains that the counters of dispatches follow from the journal: whatever an operation
counts, it counts together with the event that stands for it.
-/

namespace PageDispatch

namespace DispatchMetrics

/-- What is counted for an event. -/
def noting (x : DispatchMetrics) : Event → DispatchMetrics
  | .received _ _ _ => x.recordRequest
  | .building _ _ => x.recordPage
  | .finished _ _ summary => x.recordEnd summary.disposition (1000 * summary.latency).toUInt64
  | _ => x

/-- How many dispatches were counted that ended in a certain way. -/
def ended (x : DispatchMetrics) : Disposition → UInt64
  | .answered => x.answered
  | .failed => x.failed
  | .notFound => x.notFound
  | .abandoned => x.abandoned
  | .shed => x.shed

/-- A counter that takes in every event with its weight counts the weights together. -/
theorem foldl_noting_eq {f : DispatchMetrics → UInt64} {weight : Event → Nat}
    (h : ∀ x e, f (x.noting e) = f x + .ofNat (weight e)) (x : DispatchMetrics)
    (es : List Event) : f (es.foldl noting x) = f x + .ofNat (es.map weight).sum := by
  induction es generalizing x with
  | nil => simp
  | cons e rest ih =>
    rw [List.foldl_cons, ih, h, List.map_cons, List.sum_cons, UInt64.ofNat_add, UInt64.add_assoc]

end DispatchMetrics

namespace Machine

/-- Whether the counters are what the journal makes of them. -/
def Metered (m : Machine) : Prop := m.metrics = m.journal.foldl DispatchMetrics.noting .zero

variable {m m' : Machine} {d : Dispatch} {outer : ChannelId} {run : Run}

/-- Something is counted, and the event for it is logged. -/
theorem Metered.noting {e : Event} (h : m.Metered) (hmetrics : m'.metrics = m.metrics.noting e)
    (hjournal : m'.journal = m.journal ++ [e]) : m'.Metered := by
  unfold Metered
  rw [hmetrics, hjournal, List.foldl_append, List.foldl_cons, List.foldl_nil, h]

namespace Metered

theorem log (h : m.Metered) {e : Event} (he : ∀ x, DispatchMetrics.noting x e = x) :
    (m.log e).Metered :=
  h.noting (he m.metrics).symm rfl

theorem close (h : m.Metered) (id : ChannelId) : (m.close id).Metered :=
  log (m := m.shut id) h fun _ => rfl

theorem signal (h : m.Metered) (s : Signal) : (m.signal outer s).Metered := by
  cases s with
  | note value => exact h.log fun _ => rfl
  | close => exact h.close outer

theorem call {α : Type} (h : m.Metered) (outer : ChannelId) (c : Call α) :
    (m.call outer c).1.Metered := by
  unfold Machine.call
  dsimp only
  induction c.signals generalizing m with
  | nil => exact h
  | cons s rest ih => exact ih (h.signal s)

theorem guarded (h : m.Metered) (c : Call Response) : (m.guarded outer c).1.Metered := by
  rw [guarded_fst]
  exact h.call outer c

theorem closings (h : m.Metered) (n : Nat) : (n.repeat (fun m => m.close outer) m).Metered := by
  induction n with
  | zero => exact h
  | succ n ih => exact ih.close outer

section Answers

theorem transmit (h : m.Metered) (id : ChannelId) (wire : Wire) (r : Response) :
    (m.transmit id outer wire r).Metered := by
  unfold Machine.transmit
  split
  . exact h.log fun _ => rfl
  . dsimp only
    have hclosed := fun channel n => @closings (m.setChannel id channel) outer h n
    split
    . exact hclosed _ _
    . exact (hclosed _ _).log fun _ => rfl

theorem sendNow (h : m.Metered) (i : Nat) (id : ChannelId) (r : Response) :
    (m.sendNow i id outer r).Metered := by
  unfold Machine.sendNow
  split
  . exact h.log fun _ => rfl
  . next wire _ =>
    split
    . have hsent : ((m.log (.sending i id r)).transmit id outer wire r).Metered :=
        (h.log fun _ => rfl).transmit id wire r
      split
      . exact hsent.close id
      . exact hsent
    . exact h.log fun _ => rfl

theorem deliver (h : m.Metered) (d : Dispatch) (r : Response) : (m.deliver d r).Metered := by
  unfold Machine.deliver
  split
  . exact h.sendNow _ _ _
  . exact h

theorem finish (h : m.Metered) (d : Dispatch) (disposition : Disposition)
    (status : Option Status) : (m.finish d disposition status).Metered :=
  h.noting (e := .finished d.id d.nested (d.summary m.clock disposition status)) rfl rfl

theorem finishWith (h : m.Metered) (d : Dispatch) (disposition : Disposition) (r : Response) :
    (m.finishWith d disposition r).Metered :=
  (h.deliver d r).finish d disposition _

theorem notFound (h : m.Metered) (d : Dispatch) : (m.notFound d).Metered := by
  unfold Machine.notFound
  split
  . exact (h.guarded _).finishWith _ _ _
  . exact h.finish _ _ _

theorem conclude (h : m.Metered) (d : Dispatch) (a : Answer) : (m.conclude d a).Metered := by
  unfold Machine.conclude
  dsimp only
  split
  . exact h.finishWith _ _ _
  . exact (h.guarded _).finishWith _ _ _

theorem fail (h : m.Metered) (run : Run) (unit : String) (position : Option Nat)
    (failure : UnitFailure) (own : Accumulator) :
    (m.fail run unit position failure own).1.Metered := by
  rw [fail_fst]
  split
  . exact (h.log fun _ => rfl).call _ _
  . exact h

theorem failRun (h : m.Metered) (run : Run) (unit : String) (position : Option Nat)
    (failure : UnitFailure) (own : Accumulator) :
    (m.failRun run unit position failure own).1.Metered := by
  rw [failRun_fst]
  exact h.fail _ _ _ _ _

end Answers

section Pages

theorem decorate (h : m.Metered) (context : Context) (decorators : List Decorator)
    (chain : HandlerChain) : (m.decorate outer context decorators chain).1.Metered := by
  induction decorators generalizing m chain with
  | nil => exact h
  | cons decorator rest ih =>
    have hcall := h.call outer (decorator.decorate chain.view context)
    unfold Machine.decorate
    split
    . next heq =>
      rw [heq] at hcall
      exact ih hcall _
    . next heq =>
      rw [heq] at hcall
      exact hcall
    . next heq =>
      rw [heq] at hcall
      exact hcall

theorem buildChain (h : m.Metered) (d : Dispatch) (page : Page) :
    (m.buildChain d page).1.Metered := by
  have hcall := h.call d.outer (page.build d.context)
  rw [buildChain_fst]
  unfold Machine.construct
  split
  . next heq =>
    rw [heq] at hcall
    exact hcall.decorate _ _ _
  . next heq =>
    rw [heq] at hcall
    exact hcall
  . next heq =>
    rw [heq] at hcall
    exact hcall

theorem breakOff (h : m.Metered) (d : Dispatch) (page : String) (e : CauseChain) :
    (m.breakOff d page e).Metered := by
  have hfail : (m.failPage page d.context d.channel d.outer (.dispatch d) e).1.Metered :=
    h.fail _ _ _ _ _
  unfold Machine.breakOff
  split
  . next heq =>
    rw [heq] at hfail
    exact hfail.conclude _ _
  . next heq =>
    rw [heq] at hfail
    exact hfail.finish _ _ _

theorem tryPage (h : m.Metered) (d : Dispatch) (page : Page) : (m.tryPage d page).Metered := by
  have hcounted : (({ m with metrics := m.metrics.recordPage } : Machine).log
      (.building d.id page.name)).Metered :=
    h.noting (e := .building d.id page.name) rfl rfl
  have hbuilt := hcounted.buildChain d page
  unfold Machine.tryPage
  dsimp only
  split
  . next heq =>
    rw [heq] at hbuilt
    exact hbuilt
  . next heq =>
    rw [heq] at hbuilt
    exact hbuilt.breakOff _ _ _

theorem advance (h : m.Metered) (d : Dispatch) : (m.advance d).Metered := by
  unfold Machine.advance
  split
  . exact h.notFound d
  . exact h.tryPage _ _

theorem complete (h : m.Metered) (owner : Owner) (result : ChainResult) :
    (m.complete owner result).Metered := by
  cases owner with
  | caller => exact h.log fun _ => rfl
  | dispatch d =>
    cases result with
    | answered a => exact h.conclude d a
    | rejected evaluated rejecter => exact advance (h.log fun _ => rfl) d
    | abandoned evaluated => exact h.finish _ _ _

theorem dispatch (h : m.Metered) (request : Request) (channel : ChannelId) (nested : Bool) :
    (m.dispatch request channel outer nested).Metered := by
  unfold Machine.dispatch
  dsimp only
  generalize m.newDispatch request channel outer nested = d
  have hreceived : (m.receive d).Metered :=
    h.noting (e := .received d.id d.channel d.context.request) rfl rfl
  have hadmitted : (m.receive d).tryAdmit.2.Metered := hreceived
  split
  . next heq =>
    rw [heq] at hadmitted
    exact hadmitted.advance d
  . next heq =>
    rw [heq] at hadmitted
    exact (hadmitted.guarded _).finishWith _ _ _

theorem runFailedPage (h : m.Metered) (page : String) (context : Context) (channel : ChannelId)
    (e : CauseChain) : (m.runFailedPage page context channel e).Metered := by
  have hfail : (m.failPage page context channel channel .caller e).1.Metered := h.fail _ _ _ _ _
  unfold Machine.runFailedPage
  split
  . next heq =>
    rw [heq] at hfail
    exact hfail.log fun _ => rfl
  . next heq =>
    rw [heq] at hfail
    exact hfail.log fun _ => rfl

end Pages

section Units

theorem respond (h : m.Metered) (run : Run) (unit : String) (position : Nat) (status : Status)
    (message : Option ResponseMessage) (own : Accumulator) :
    (m.respond run unit position status message own).1.Metered := by
  unfold Machine.respond
  dsimp only
  split
  . exact h
  . exact h
  . next value =>
    have hcall := h.call run.outer (m.settings.codec value)
    split
    . next heq =>
      rw [heq] at hcall
      exact hcall
    . next heq =>
      rw [heq] at hcall
      exact hcall.failRun _ _ _ _ _
    . next heq =>
      rw [heq] at hcall
      exact hcall

theorem apply (h : m.Metered) (run : Run) (unit : String) (position : Nat) (outcome : Outcome)
    (own : Accumulator) : (m.apply run unit position outcome own).1.Metered := by
  unfold Machine.apply
  split
  . cases outcome with
    | rejected =>
      dsimp only
      split
      . exact h.failRun _ _ _ _ _
      . exact h
    | consumed objects locked => exact h
    | respondWith status message => exact h.respond _ _ _ _ _ _
  . exact h

theorem judge (h : m.Metered) (run : Run) (unit : String) (position : Nat) (own : Accumulator)
    (ending : UnitEnding) : (m.judge run unit position own ending).1.Metered := by
  cases ending with
  | decided outcome => exact h.apply _ _ _ _ _
  | deferred plan => exact h
  | failed e => exact h.failRun _ _ _ _ _
  | panicked payload => exact h.failRun _ _ _ _ _

theorem perform (h : m.Metered) (action : UnitAction) : (m.perform outer action).Metered := by
  cases action with
  | signal s => exact h.signal s
  | registerPage page => exact h
  | addDecorator decorator => exact h
  | dispatch request => exact dispatch (m := (m.connect ⟨.new, none⟩).2) h request _ true

theorem performAll (h : m.Metered) (actions : List UnitAction) :
    (m.performAll outer actions).Metered := by
  unfold Machine.performAll
  induction actions generalizing m with
  | nil => exact h
  | cons action rest ih => exact ih (h.perform action)

theorem evaluate (h : m.Metered) (run : Run) (position : Nat) (u : HandlerUnit) :
    (m.evaluate run position u).1.Metered := by
  unfold Machine.evaluate
  split
  . exact h
  . exact ((h.log fun _ => rfl).performAll _).judge _ _ _ _ _

theorem process (h : m.Metered) (run : Run) (position : Nat) (element : ChainElement) :
    (m.process run position element).1.Metered := by
  cases element with
  | unit u => exact h.evaluate _ _ _
  | spec spec =>
    have hmade : (m.instantiate run spec).1.Metered := by
      rw [instantiate_fst]
      generalize (m.settings.registry.instantiate m.patterns spec run.context).2 = patterns
      have hlog : (({ m with patterns } : Machine).log
          (.instantiating run.owner.id? spec)).Metered := log h fun _ => rfl
      exact hlog.call _ _
    unfold Machine.process
    dsimp only
    split
    . next heq =>
      rw [heq] at hmade
      exact hmade.evaluate _ _ _
    . next heq =>
      rw [heq] at hmade
      exact hmade.failRun _ _ _ _ _

theorem step (h : m.Metered) (run : Run) : (m.step run).1.Metered := by
  unfold Machine.step
  split
  . split
    . unfold Machine.exhausted
      split
      . exact h.failRun _ _ _ _ _
      . exact h
    . exact h.process _ _ _
  . exact h

theorem resume (h : m.Metered) (s : Suspension) (r : Resolved) : (m.resume s r).1.Metered := by
  unfold Machine.resume
  split
  . exact h.apply _ _ _ _ _
  . exact h.failRun _ _ _ _ _
  . exact h.failRun _ _ _ _ _

theorem turn (h : m.Metered) (job : Job) : (m.turn job).1.Metered := by
  cases job with
  | step run => exact h.step run
  | resume s r => exact h.resume s r

end Units

section Steps

theorem suspend (h : m.Metered) (s : Suspension) (plan : DeferralPlan) :
    (m.suspend s plan).Metered := by
  unfold Machine.suspend
  dsimp only
  split
  . exact h
  . have hclosed : (if plan.closes then m.close s.run.outer else m).Metered := by
      split
      . exact h.close _
      . exact h
    exact hclosed

theorem proceed (h : m.Metered) (owner : Owner) (evaluated : Nat) (p : Progress) :
    (m.proceed owner evaluated p).1.Metered := by
  cases p with
  | continues run => exact h
  | suspended s plan => exact h.suspend s plan
  | ended result => exact h.complete owner result
  | escaped => exact complete (h.log fun _ => rfl) owner _

theorem ring (h : m.Metered) (alarm : Alarm) : (m.ring alarm).Metered := by
  cases alarm with
  | deliver dispatch channel outer response => exact h.sendNow _ _ _
  | resolve slot closes outer r =>
    have hclosed : (if closes then m.close outer else m).Metered := by
      split
      . exact h.close _
      . exact h
    unfold Machine.ring
    dsimp only
    unfold Machine.resolve
    split
    . exact hclosed
    . exact hclosed

end Steps

end Metered

variable {job : Job} {started : Machine} {settings : Settings}

theorem Metered.startJob? (h : m.Metered) (hstart : m.startJob? = some (job, started)) :
    started.Metered := by
  obtain ⟨rest, -, rfl⟩ := startJob?_eq_some hstart
  exact h

theorem Calm.metered (h : m.Calm m') (hm : m.Metered) : m'.Metered := by
  cases h with
  | reorder hperm => exact hm
  | ring now htimers hp => exact Metered.ring (m := { m with timers := _, clock := now }) hm _
  | dispatch request hc => exact hm.dispatch request _ false
  | runChain chain context hc => exact hm
  | connect wire hw => exact hm
  | close id => exact hm.close id
  | rewire id hw => exact hm
  | registerPage page => exact hm
  | addDecorator decorator => exact hm

theorem Stirs.metered (h : m.Stirs m') (hm : m.Metered) : m'.Metered := by
  cases h with
  | work hstart => exact ((hm.startJob? hstart).turn _).proceed _ _ _
  | wake now htimers halarm => exact Metered.ring (m := { m with timers := _, clock := now }) hm _
  | failPage page context e hc => exact hm.runFailedPage page context _ e
  | calm hcalm => exact hcalm.metered hm

/-- Whatever happens, the counters of an engine are what its journal makes of them. -/
theorem Stirred.metered (h : Stirred settings m) : m.Metered := by
  induction h with
  | new pages decorators => rfl
  | next _ hnext ih => exact hnext.metered ih

end Machine
end PageDispatch
