import PageDispatch.Proofs.Machine.Flights

/-!
This module contains executions in which channels may also open again. The steps are sorted by what
they do to the runs: a job, the wake of a parked run, a page that fails for a caller, and all
others.
-/

namespace PageDispatch
namespace Machine

/-- Exchanges a channel for another one. -/
def rewire (m : Machine) (id : ChannelId) (wire : Wire) : Machine :=
  { m with wires := m.wires.set id wire }

/-- What can happen between two jobs and neither wakes a run nor completes one. -/
inductive Calm (m : Machine) : Machine → Prop
  | reorder {waiting : List Job} (h : waiting.Perm m.pool.waiting) :
    Calm m { m with pool := { m.pool with waiting } }
  | ring {before after : List Timer} {timer : Timer} (now : Nat)
    (h : m.timers = before ++ timer :: after) (hp : timer.alarm.parked? = none) :
    Calm m ({ m with timers := before ++ after, clock := now }.ring timer.alarm)
  | dispatch {channel : ChannelId} (request : Request) (h : channel < m.wires.length) :
    Calm m (m.dispatch request channel channel false)
  | runChain {channel : ChannelId} (chain : HandlerChain) (context : Context)
    (h : channel < m.wires.length) : Calm m (m.runChain chain context channel)
  | connect (wire : Wire) (h : wire.channel.isOpen = true) : Calm m (m.connect wire).2
  | close (id : ChannelId) : Calm m (m.close id)
  | rewire (id : ChannelId) {wire : Wire} (h : wire.channel.isOpen = true) :
    Calm m (m.rewire id wire)
  | registerPage (page : Page) : Calm m (m.registerPage page)
  | addDecorator (decorator : Decorator) : Calm m (m.addDecorator decorator)

inductive Stirs (m : Machine) : Machine → Prop
  | work {job : Job} {started : Machine} (h : m.startJob? = some (job, started)) :
    Stirs m ((started.work job).1.endJob (started.work job).2)
  | wake {before after : List Timer} {timer : Timer} {s : Suspension} {closes : Bool}
    {outer : ChannelId} {r : Resolved} (now : Nat) (h : m.timers = before ++ timer :: after)
    (halarm : timer.alarm = .resolve (.registered s) closes outer r) :
    Stirs m ({ m with timers := before ++ after, clock := now }.ring timer.alarm)
  | failPage {channel : ChannelId} (page : String) (context : Context) (e : CauseChain)
    (h : channel < m.wires.length) : Stirs m (m.runFailedPage page context channel e)
  | calm {m' : Machine} (h : m.Calm m') : Stirs m m'

/-- What an engine can come to if its channels may open again. -/
inductive Stirred (settings : Settings) : Machine → Prop
  | new (pages : List Page) (decorators : List Decorator) :
    Stirred settings (new settings pages decorators)
  | next {m m' : Machine} (h : Stirred settings m) (hnext : m.Stirs m') : Stirred settings m'

variable {m m' : Machine}

theorem Step.stirs (h : m.Step m') : m.Stirs m' := by
  cases h with
  | work h =>
    obtain ⟨job, started, hstart, rfl⟩ := exists_work_of_runJob? h
    exact .work hstart
  | @ring before after timer now htimers =>
    cases hp : timer.alarm.parked? with
    | none => exact .calm (.ring now htimers hp)
    | some f =>
      unfold Alarm.parked? at hp
      split at hp
      . next halarm => exact .wake now htimers halarm
      . cases hp
  | runFailedPage page context e hc => exact .failPage page context e hc
  | reorder hperm => exact .calm (.reorder hperm)
  | dispatch request hc => exact .calm (.dispatch request hc)
  | runChain chain context hc => exact .calm (.runChain chain context hc)
  | connect wire hw => exact .calm (.connect wire hw)
  | close id => exact .calm (.close id)
  | registerPage page => exact .calm (.registerPage page)
  | addDecorator decorator => exact .calm (.addDecorator decorator)

theorem Calm.cases (h : m.Calm m') :
    m.Step m' ∨ ∃ id wire, wire.channel.isOpen = true ∧ m' = m.rewire id wire := by
  cases h with
  | @rewire id wire hw => exact .inr ⟨id, wire, hw, rfl⟩
  | ring now htimers hp => exact .inl (.ring now htimers)
  | reorder hperm => exact .inl (.reorder hperm)
  | dispatch request hc => exact .inl (.dispatch request hc)
  | runChain chain context hc => exact .inl (.runChain chain context hc)
  | connect wire hw => exact .inl (.connect wire hw)
  | close id => exact .inl (.close id)
  | registerPage page => exact .inl (.registerPage page)
  | addDecorator decorator => exact .inl (.addDecorator decorator)

theorem Stirs.cases (h : m.Stirs m') :
    m.Step m' ∨ ∃ id wire, wire.channel.isOpen = true ∧ m' = m.rewire id wire := by
  cases h with
  | work hstart =>
    refine .inl (.work ?_)
    rw [runJob?, hstart]
    rfl
  | wake now htimers halarm => exact .inl (.ring now htimers)
  | failPage page context e hc => exact .inl (.runFailedPage page context e hc)
  | calm h => exact h.cases

theorem Stirred.reaches {settings : Settings} (h : Stirred settings m) (hreach : m.Reaches m') :
    Stirred settings m' := by
  induction hreach with
  | refl => exact h
  | tail _ hlast ih => exact ih.next hlast.stirs

theorem Reachable.stirred {settings : Settings} (h : Reachable settings m) :
    Stirred settings m := by
  obtain ⟨pages, decorators, hreach⟩ := h
  exact (Stirred.new pages decorators).reaches hreach

theorem length_wires_rewire {id : ChannelId} {wire : Wire} :
    (m.rewire id wire).wires.length = m.wires.length :=
  List.length_set

theorem isOpen_rewire {channel id : ChannelId} {wire : Wire} (hlt : channel < m.wires.length) :
    (m.rewire id wire).isOpen channel
      =
    if id = channel then wire.channel.isOpen else m.isOpen channel := by
  simp only [isOpen, rewire, List.getElem?_set]
  cases Decidable.em (id = channel) with
  | inl heq =>
    subst heq
    rw [if_pos rfl, if_pos rfl, if_pos hlt]
  | inr hne => rw [if_neg hne, if_neg hne]

/-- That a channel opens again is no event. -/
theorem Sane.rewire (h : m.Sane) (id : ChannelId) {wire : Wire}
    (hw : wire.channel.isOpen = true) : (m.rewire id wire).Sane where
  fresh := h.fresh
  honest := by
    refine h.honest.of_journal_eq rfl ?_ ?_
    . exact Nat.le_of_eq length_wires_rewire.symm
    . intro channel hlt hc
      rw [length_wires_rewire] at hlt
      rw [isOpen_rewire hlt] at hc
      split at hc
      . rw [hw] at hc
        contradiction
      . exact ⟨hlt, hc⟩
  patterns := h.patterns
  flights f hf := by
    have hfit := h.flights f hf
    refine ⟨?_, hfit.owner, hfit.line⟩
    rw [length_wires_rewire]
    exact hfit.channel

theorem Stirs.sane (h : m.Stirs m') (hm : m.Sane) : m'.Sane := by
  obtain hstep | ⟨id, wire, hw, rfl⟩ := h.cases
  . exact (hstep.sane hm).1
  . exact hm.rewire id hw

theorem Stirs.dispatches_le (h : m.Stirs m') (hm : m.Sane) : m.dispatches ≤ m'.dispatches := by
  obtain hstep | ⟨id, wire, hw, rfl⟩ := h.cases
  . exact (hstep.sane hm).2.dispatches
  . exact Nat.le_refl _

theorem Stirs.length_wires_le (h : m.Stirs m') (hm : m.Sane) :
    m.wires.length ≤ m'.wires.length := by
  obtain hstep | ⟨id, wire, hw, rfl⟩ := h.cases
  . exact (hstep.sane hm).2.wires
  . exact Nat.le_of_eq length_wires_rewire.symm

theorem Stirs.journal_prefix (h : m.Stirs m') (hm : m.Sane) : m.journal <+: m'.journal := by
  obtain hstep | ⟨id, wire, hw, rfl⟩ := h.cases
  . exact (hstep.sane hm).2.journal
  . exact List.prefix_refl _

theorem Stirred.sane {settings : Settings} (h : Stirred settings m) : m.Sane := by
  induction h with
  | new pages decorators => exact sane_new settings pages decorators
  | next _ hnext ih => exact hnext.sane ih

end Machine
end PageDispatch
