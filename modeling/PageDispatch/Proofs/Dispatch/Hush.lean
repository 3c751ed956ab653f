import PageDispatch.Proofs.Dispatch.Sequence
import PageDispatch.Proofs.Machine.Deeds

/-!
This module contains the operations of a machine as deeds: before a dispatch calls on anybody, its
channel is looked at, unless the call belongs to the one just before it.
-/

namespace PageDispatch

namespace Strand

variable {closed : Prop} {i : Nat} {channel : ChannelId} {request : Request} {s : Strand}

theorem Tells.owner_of_mem {f : Flight} (h : s.Tells closed i channel request)
    (hf : f ∈ s.flights) : ∃ d, f.run.owner = .dispatch d ∧ d.channel = channel := by
  cases h with
  | @busy g d es howner hid hch hes =>
    rw [Multiset.mem_singleton.mp hf]
    exact ⟨d, howner, hch⟩
  | abandoned hes hd hs hc => cases Multiset.notMem_zero _ hf
  | pending hes hd hs => cases Multiset.notMem_zero _ hf
  | answered hes hd hs hlast => cases Multiset.notMem_zero _ hf

theorem Tells.channel_of_mem {p : ChannelId × Response} (h : s.Tells closed i channel request)
    (hp : p ∈ s.due) : p.1 = channel := by
  cases h with
  | pending hes hd hs => rw [Multiset.mem_singleton.mp hp]
  | busy howner hid hch hes => cases Multiset.notMem_zero _ hp
  | abandoned hes hd hs hc => cases Multiset.notMem_zero _ hp
  | answered hes hd hs hlast => cases Multiset.notMem_zero _ hp

end Strand

namespace Machine

variable {m m' : Machine} {i : Nat} {channel outer : ChannelId} {d : Dispatch} {run : Run}

theorem deeds_log {e : Event} (hb : m.Bears e)
    (h : e.dispatch? = some i → e.isCall = true →
      m.isOpen channel = true ∨ LeadsTo (m.strand i).events e) : Deeds i channel m (m.log e) :=
  .single (.log hb h)

theorem deeds_note {e : Event} (hb : m.Bears e) (h : e.isCall = false) :
    Deeds i channel m (m.log e) := by
  refine deeds_log hb ?_
  intro _ hcall
  rw [h] at hcall
  cases hcall

theorem deeds_still (hg : m.Grows m') (hj : m'.journal = m.journal) : Deeds i channel m m' :=
  .single (.still hg hj)

theorem deeds_submit (job : Job) : Deeds i channel m (m.submit job) :=
  deeds_still (grows_submit job) rfl

theorem deeds_call {α : Type} (c : Call α) : Deeds i channel m (m.call outer c).1 :=
  (@acts_call m (fun _ => False) outer _ c).deeds id

theorem deeds_guarded (c : Call Response) : Deeds i channel m (m.guarded outer c).1 :=
  (@acts_guarded m (fun _ => False) outer c).deeds id

section Answers

theorem deeds_sendNow {j : Nat} {id : ChannelId} (h : j = i → id = channel) (r : Response) :
    Deeds i channel m (m.sendNow j id outer r) := by
  cases hopen : m.isOpen id with
  | false =>
    rw [sendNow_of_closed hopen]
    exact deeds_note hopen rfl
  | true =>
    have hlog : Deeds i channel m (m.log (.sending j id r)) := by
      refine deeds_log trivial ?_
      intro hown _
      injection hown with hown
      exact .inl (h hown ▸ hopen)
    exact hlog.trans ((acts_sendNow_of_open hopen).deeds fun hwho => hwho)

theorem deeds_deliver (h : d.id = i → d.channel = channel) (r : Response) :
    Deeds i channel m (m.deliver d r) := by
  unfold deliver
  split
  . exact deeds_sendNow h r
  . exact deeds_still (grows_schedule _ _) rfl

theorem deeds_finish (disposition : Disposition) (status : Option Status) :
    Deeds i channel m (m.finish d disposition status) := by
  unfold finish
  dsimp only
  generalize hm : { m with metrics := _ } = next
  have hnext : Deeds i channel m next := by
    rw [← hm]
    exact deeds_still { Grows.refl (m := m) with } rfl
  exact hnext.trans (deeds_note trivial rfl)

theorem deeds_finishWith (h : d.id = i → d.channel = channel) (disposition : Disposition)
    (r : Response) : Deeds i channel m (m.finishWith d disposition r) :=
  (deeds_deliver h r).trans (deeds_finish _ _)

theorem deeds_notFound (h : d.id = i → d.channel = channel) :
    Deeds i channel m (m.notFound d) := by
  unfold notFound
  split
  . exact (deeds_guarded _).trans (deeds_finishWith (d := { d with current := none }) h _ _)
  . exact deeds_finish _ _

theorem deeds_conclude (h : d.id = i → d.channel = channel) (a : Answer) :
    Deeds i channel m (m.conclude d a) := by
  unfold conclude
  dsimp only
  split
  . exact deeds_finishWith h _ _
  . exact (deeds_guarded _).trans (deeds_finishWith h _ _)

theorem deeds_fail (h : run.owner.id? = some i → run.channel = channel) (unit : String)
    (position : Option Nat) (failure : UnitFailure) (own : Accumulator) :
    Deeds i channel m (m.fail run unit position failure own).1 := by
  cases hopen : m.isOpen run.channel with
  | false =>
    rw [fail_of_closed hopen]
  | true =>
    rw [fail_of_open hopen]
    have hlog : Deeds i channel m
        (m.log (.reporting run.owner.id? (run.report unit position failure))) := by
      refine deeds_log trivial ?_
      intro hown _
      exact .inl (h hown ▸ hopen)
    exact hlog.trans (deeds_call _)

end Answers

section Pages

theorem deeds_breakOff (h : d.id = i → d.channel = channel) (page : String) (e : CauseChain) :
    Deeds i channel m (m.breakOff d page e) := by
  have hown : (Owner.dispatch d).id? = some i → d.channel = channel := by
    intro hown
    injection hown with hown
    exact h hown
  have hfail : Deeds i channel m
      (m.failPage page d.context d.channel d.outer (.dispatch d) e).1 :=
    @deeds_fail m i channel (.ofChain (.empty page) d.context d.channel d.outer (.dispatch d)) hown
      "<page>" none (.pageBuild e) .empty
  unfold breakOff
  split
  . next heq =>
    rw [heq] at hfail
    exact hfail.trans (deeds_conclude h _)
  . next heq =>
    rw [heq] at hfail
    exact hfail.trans (deeds_finish _ _)

variable (hcheck : d.id = i → m.isOpen channel = true ∨
  ∃ last, (m.strand i).events.getLast? = some last ∧ ∀ page, last.leadsTo (.building i page) = true)
include hcheck

theorem deeds_tryPage (h : d.id = i → d.channel = channel) (page : Page) :
    Deeds i channel m (m.tryPage d page) := by
  unfold tryPage
  dsimp only
  generalize hm : { m with metrics := m.metrics.recordPage } = next
  have hnext : Deeds i channel m next := by
    rw [← hm]
    exact deeds_still { Grows.refl (m := m) with } rfl
  have hlog : Deeds i channel next (next.log (.building d.id page.name)) := by
    refine deeds_log trivial ?_
    intro hown _
    injection hown with hown
    rw [← hm, hown]
    refine (hcheck hown).imp id ?_
    intro hleads
    obtain ⟨last, hlast, hleads⟩ := hleads
    exact ⟨last, hlast, hleads _⟩
  have hbuild := (hnext.trans hlog).trans
    ((@acts_buildChain _ (fun _ => False) d page).deeds fun hwho => hwho)
  split
  . next heq =>
    rw [heq] at hbuild
    exact hbuild.trans (deeds_submit _)
  . next heq =>
    rw [heq] at hbuild
    exact hbuild.trans (deeds_breakOff h _ _)

theorem deeds_advance (h : d.id = i → d.channel = channel) :
    Deeds i channel m (m.advance d) := by
  unfold advance
  split
  . exact deeds_notFound h
  . next page _ => exact @deeds_tryPage m i channel (d.trying page) hcheck h page

end Pages

theorem deeds_complete {owner : Owner} {result : ChainResult}
    (h : ∀ d, owner = .dispatch d → d.id = i → d.channel = channel)
    (hrejected : ∀ evaluated rejecter, result = .rejected evaluated rejecter →
      owner.id? = some i → m.isOpen channel = true) :
    Deeds i channel m (m.complete owner result) := by
  cases owner with
  | caller => exact deeds_note trivial rfl
  | dispatch d =>
    have hd := h d rfl
    cases result with
    | answered a => exact deeds_conclude hd a
    | abandoned evaluated => exact deeds_finish _ _
    | rejected evaluated rejecter =>
      have hlog : Deeds i channel m (m.log (.rejected d.id d.tried)) := deeds_note trivial rfl
      refine hlog.trans (deeds_advance ?_ hd)
      intro hown
      exact .inl (hrejected evaluated rejecter rfl (congrArg some hown))

theorem deeds_dispatch {id : ChannelId} {request : Request} {nested : Bool}
    (hid : id < m.wires.length) (h : m.dispatches = i → id = channel) :
    Deeds i channel m (m.dispatch request id outer nested) := by
  unfold dispatch
  dsimp only
  generalize hd : m.newDispatch request id outer nested = d
  have hown : d.id = i → d.channel = channel := by
    rw [← hd]
    exact h
  have hreceive : Deeds i channel m (m.receive d) := by
    unfold receive
    generalize hm : { m with metrics := _, dispatches := _ } = next
    have hg : m.Grows next := by
      rw [← hm]
      exact { Grows.refl (m := m) with dispatches := Nat.le_succ _ }
    have hnext : Deeds i channel m next := deeds_still hg (by rw [← hm])
    refine hnext.trans (deeds_note ?_ rfl)
    rw [← hd]
    exact Nat.lt_of_lt_of_le hid hg.wires
  have hadmitted := sameWork_tryAdmit (m := m.receive d)
  have hall := hreceive.trans (deeds_still hadmitted.grows hadmitted.journal)
  have hevents : ((m.receive d).tryAdmit.2.strand d.id).events
      = (m.strand d.id).events ++ [.received d.id d.channel d.context.request] := by
    rw [hadmitted.strand_eq]
    unfold receive
    rw [strand_log_of_eq rfl]
    rfl
  split
  . next heq =>
    rw [heq] at hall hevents
    refine hall.trans (deeds_advance ?_ hown)
    rintro rfl
    refine .inr ⟨.received d.id d.channel d.context.request, ?_, fun _ => rfl⟩
    rw [hevents]
    exact List.getLast?_concat
  . next heq =>
    rw [heq] at hall
    exact hall.trans ((deeds_guarded _).trans (deeds_finishWith hown _ _))

section Units

/-- Whether it is the channel of a dispatch, as far as that has arrived. -/
def Lines (m : Machine) (i : Nat) (channel : ChannelId) : Prop :=
  ∀ id request, .received i id request ∈ m.journal → id = channel

theorem Lines.of_grows (h : m'.Lines i channel) (hg : m.Grows m') : m.Lines i channel := by
  intro id request hmem
  exact h id request (hg.journal.subset hmem)

theorem deeds_perform {action : UnitAction} (h : (m.perform outer action).Lines i channel) :
    Deeds i channel m (m.perform outer action) := by
  cases action with
  | signal s => exact (@acts_signal m (fun _ => False) outer s).deeds fun hwho => hwho
  | registerPage page => exact deeds_still { Grows.refl (m := m) with } rfl
  | addDecorator decorator =>
    exact deeds_still { Grows.refl (m := m) with decorators := List.prefix_append _ _ } rfl
  | dispatch request =>
    have hconnect : Act (fun _ => False) m (m.connect ⟨.new, none⟩).2 := .connect _ rfl
    refine (Relation.ReflTransGen.single (hconnect.deed fun hwho => hwho)).trans ?_
    refine deeds_dispatch ?_ ?_
    . rw [length_wires_connect]
      exact Nat.lt_succ_self _
    . rintro rfl
      exact h _ request (mem_journal_of_mem_strand received_mem_dispatch)

theorem deeds_performAll {actions : List UnitAction}
    (h : (m.performAll outer actions).Lines i channel) :
    Deeds i channel m (m.performAll outer actions) := by
  unfold performAll at h ⊢
  induction actions generalizing m with
  | nil => exact .refl
  | cons action rest ih =>
    have hrest := (@acts_performAll (m.perform outer action) (fun _ => True) outer
      (fun _ _ => trivial) rest).grows
    exact (deeds_perform (h.of_grows hrest)).trans (ih h)

/-- A turn of a run as deeds; only a run on an open channel rejects the request. -/
structure Heeds (i : Nat) (channel : ChannelId) (m : Machine) (run : Run)
    (done : Machine × Progress) : Prop where
  deeds : Deeds i channel m done.1
  rejects : ∀ evaluated rejecter, done.2 = .ended (.rejected evaluated rejecter) →
    done.1.isOpen run.channel = true

theorem Heeds.after {done : Machine × Progress} (h : Heeds i channel m' run done)
    (hdeeds : Deeds i channel m m') : Heeds i channel m run done :=
  ⟨hdeeds.trans h.deeds, h.rejects⟩

variable (hrun : run.owner.id? = some i → run.channel = channel)
include hrun

theorem heeds_failRun (unit : String) (position : Option Nat) (failure : UnitFailure)
    (own : Accumulator) : Heeds i channel m run (m.failRun run unit position failure own) := by
  constructor
  . rw [failRun_fst]
    exact deeds_fail hrun _ _ _ _
  . intro evaluated rejecter
    unfold failRun
    split
    . simp
    . simp

theorem heeds_respond (unit : String) (position : Nat) (status : Status)
    (message : Option ResponseMessage) (own : Accumulator) :
    Heeds i channel m run (m.respond run unit position status message own) := by
  unfold respond
  dsimp only
  split
  . exact ⟨.refl, by simp⟩
  . exact ⟨.refl, by simp⟩
  . next value =>
    have hcall := @deeds_call m i channel run.outer _ (m.settings.codec value)
    split
    . next heq =>
      rw [heq] at hcall
      exact ⟨hcall, by simp⟩
    . next heq =>
      rw [heq] at hcall
      exact (heeds_failRun hrun _ _ _ _).after hcall
    . next heq =>
      rw [heq] at hcall
      exact ⟨hcall, by simp⟩

theorem heeds_apply (unit : String) (position : Nat) (outcome : Outcome) (own : Accumulator) :
    Heeds i channel m run (m.apply run unit position outcome own) := by
  unfold apply
  split
  . next hopen =>
    cases outcome with
    | rejected =>
      dsimp only
      split
      . exact heeds_failRun hrun _ _ _ _
      . exact ⟨.refl, fun _ _ _ => hopen⟩
    | consumed objects locked => exact ⟨.refl, by simp⟩
    | respondWith status message => exact heeds_respond hrun _ _ _ _ _
  . exact ⟨.refl, by simp⟩

theorem heeds_judge (unit : String) (position : Nat) (own : Accumulator) (ending : UnitEnding) :
    Heeds i channel m run (m.judge run unit position own ending) := by
  cases ending with
  | decided outcome => exact heeds_apply hrun _ _ _ _
  | deferred plan => exact ⟨.refl, by simp [judge]⟩
  | failed e => exact heeds_failRun hrun _ _ _ _
  | panicked payload => exact heeds_failRun hrun _ _ _ _

theorem heeds_exhausted (hopen : m.isOpen run.channel = true) :
    Heeds i channel m run (m.exhausted run) := by
  unfold exhausted
  split
  . exact heeds_failRun hrun _ _ _ _
  . exact ⟨.refl, fun _ _ _ => hopen⟩

theorem heeds_evaluate {position : Nat} {u : HandlerUnit}
    (hcheck : run.owner.id? = some i → m.isOpen channel = true ∨
      ∃ last, (m.strand i).events.getLast? = some last ∧
        ∀ name view, last.leadsTo (.evaluating (some i) position name view) = true)
    (hlines : (m.evaluate run position u).1.Lines i channel) :
    Heeds i channel m run (m.evaluate run position u) := by
  unfold evaluate at hlines ⊢
  cases hname : u.name with
  | error payload => exact ⟨.refl, by simp⟩
  | ok name =>
    rw [hname] at hlines
    dsimp only at hlines ⊢
    have hlog : Deeds i channel m (m.log (.evaluating run.owner.id? position name run.view)) := by
      refine deeds_log trivial ?_
      intro hown _
      refine (hcheck hown).imp id ?_
      intro hleads
      obtain ⟨last, hlast, hleads⟩ := hleads
      exact ⟨last, hlast, by rw [show run.owner.id? = some i from hown]; exact hleads name run.view⟩
    generalize hacted : performAll _ _ _ = acted at hlines ⊢
    have hjudge := @heeds_judge acted i channel (run.edited (u.evaluate run.view).edits) hrun name
      position (u.evaluate run.view).response (u.evaluate run.view).ending
    have hacts := hlog.trans
      (hacted ▸ deeds_performAll (hacted ▸ hlines.of_grows hjudge.deeds.grows))
    exact ⟨hacts.trans hjudge.deeds, hjudge.rejects⟩

theorem deeds_instantiate (hopen : m.isOpen run.channel = true) (spec : UnitSpec) :
    Deeds i channel m (m.instantiate run spec).1 := by
  rw [instantiate_fst]
  generalize hm : { m with patterns := _ } = next
  have hg : m.Grows next := by
    rw [← hm]
    exact { Grows.refl (m := m) with patterns := Registry.sound_instantiate }
  have hnext : Deeds i channel m next := deeds_still hg (by rw [← hm])
  have hlog : Deeds i channel next (next.log (.instantiating run.owner.id? spec)) := by
    refine deeds_log trivial ?_
    intro hown _
    rw [← hrun hown, ← hm]
    exact .inl hopen
  exact (hnext.trans hlog).trans (deeds_call _)

omit hrun in
theorem getLast?_instantiate (hown : run.owner.id? = some i) (spec : UnitSpec) :
    ((m.instantiate run spec).1.strand i).events.getLast?
      = some (.instantiating run.owner.id? spec) := by
  rw [instantiate_fst]
  rw [(@acts_call _ (fun _ => False) _ _ _).strand_eq (fun hwho => hwho)]
  rw [strand_log_of_eq (e := .instantiating run.owner.id? spec) hown]
  exact List.getLast?_concat

theorem heeds_process (hopen : m.isOpen run.channel = true) {position : Nat}
    {element : ChainElement} (hlines : (m.process run position element).1.Lines i channel) :
    Heeds i channel m run (m.process run position element) := by
  cases element with
  | unit u => exact heeds_evaluate hrun (fun hown => .inl (hrun hown ▸ hopen)) hlines
  | spec spec =>
    have hmade := @deeds_instantiate m i channel run hrun hopen spec
    have hlast := fun hown => @getLast?_instantiate m i run hown spec
    unfold process at hlines ⊢
    dsimp only at hlines ⊢
    generalize m.instantiate run spec = made at hmade hlast hlines ⊢
    obtain ⟨next, result⟩ := made
    cases result with
    | error e => exact (heeds_failRun hrun _ _ _ _).after hmade
    | ok u =>
      refine (heeds_evaluate hrun ?_ hlines).after hmade
      intro hown
      exact .inr ⟨_, hlast hown, fun _ _ => rfl⟩

theorem heeds_step (hlines : (m.step run).1.Lines i channel) :
    Heeds i channel m run (m.step run) := by
  unfold step at hlines ⊢
  split at hlines
  . next hopen =>
    rw [if_pos hopen]
    cases hnext : run.remnant.next? with
    | none => exact heeds_exhausted hrun hopen
    | some next =>
      rw [hnext] at hlines
      have hprocess := @heeds_process m i channel (run.past next.2) hrun hopen _ _ hlines
      exact ⟨hprocess.deeds, hprocess.rejects⟩
  . next hclosed =>
    rw [if_neg hclosed]
    exact ⟨.refl, by simp⟩

end Units

section Jobs

theorem heeds_resume {s : Suspension} (hrun : s.run.owner.id? = some i → s.run.channel = channel)
    (r : Resolved) : Heeds i channel m s.run (m.resume s r) := by
  unfold resume
  split
  . exact heeds_apply hrun _ _ _ _
  . exact heeds_failRun hrun _ _ _ _
  . exact heeds_failRun hrun _ _ _ _

theorem heeds_turn {job : Job} (hrun : job.run.owner.id? = some i → job.run.channel = channel)
    (hlines : (m.turn job).1.Lines i channel) : Heeds i channel m job.run (m.turn job) := by
  cases job with
  | step run => exact heeds_step hrun hlines
  | resume s r => exact heeds_resume hrun r

theorem deeds_suspend (s : Suspension) (plan : DeferralPlan) :
    Deeds i channel m (m.suspend s plan) := by
  cases suspend_cases (m := m) s plan with
  | inl hpark =>
    obtain ⟨after, heq, -⟩ := hpark
    rw [heq]
    exact deeds_still (grows_schedule _ _) rfl
  | inr hqueue =>
    obtain ⟨closed, hclosed, heq, -⟩ := hqueue
    rw [heq]
    exact (hclosed.deeds fun hwho => hwho).trans (deeds_submit _)

theorem deeds_work {job : Job} (hfit : m.Fits job.run)
    (hrun : job.run.owner.id? = some i → job.run.channel = channel)
    (hlines : (m.work job).1.Lines i channel) : Deeds i channel m (m.work job).1 := by
  have hgrows := (acts_turn_of_fits hfit).grows
  have hproceed := @grows_proceed (m.turn job).1 job.run job.run.owner (m.turn job).2 job.evaluated
    (hfit.of_grows hgrows) rfl
  have hturn := @heeds_turn m i channel job hrun (Lines.of_grows hlines hproceed)
  have howner : ∀ d, job.run.owner = .dispatch d → d.id = i → d.channel = channel := by
    intro d hd hid
    rw [← hfit.line d hd]
    apply hrun
    rw [hd, ← hid]
    rfl
  unfold work
  generalize m.turn job = done at hturn
  obtain ⟨turned, p⟩ := done
  refine hturn.deeds.trans ?_
  dsimp only
  cases p with
  | continues later => exact deeds_submit _
  | suspended s plan => exact deeds_suspend s plan
  | ended result =>
    refine deeds_complete howner ?_
    intro evaluated rejecter heq hown
    rw [← hrun hown]
    exact hturn.rejects evaluated rejecter (by rw [heq])
  | escaped =>
    have hlog : Deeds i channel turned (turned.log (.escaped job.run.owner.id?)) :=
      deeds_note trivial rfl
    exact hlog.trans (deeds_complete howner (by simp))

end Jobs

section Steps

variable {request : Request} {before after : List Timer} {timer : Timer}

/-- Whether all that is left of a dispatch belongs to a certain channel. -/
structure Serves (m : Machine) (i : Nat) (channel : ChannelId) : Prop where
  runs : ∀ f, m.Holds f → f.run.owner.id? = some i → f.run.channel = channel
  due : ∀ timer ∈ m.timers, ∀ id outer r, timer.alarm = .deliver i id outer r → id = channel

theorem mem_due_strand {id outer : ChannelId} {r : Response} (hmem : timer ∈ m.timers)
    (halarm : timer.alarm = .deliver i id outer r) : (id, r) ∈ (m.strand i).due := by
  refine Multiset.mem_coe.mpr (List.mem_filterMap.mpr ⟨timer, hmem, ?_⟩)
  rw [halarm]
  exact if_pos rfl

theorem Tells.serves (h : m.Tells i channel request) (hm : m.Sane) : m.Serves i channel where
  runs f hf hown := by
    obtain ⟨d, howner, hd⟩ := h.owner_of_mem (mem_flights_iff.mpr ⟨hf, hown⟩)
    rw [(hm.flights f hf).line d howner]
    exact hd
  due timer hmem id outer r halarm := h.channel_of_mem (mem_due_strand hmem halarm)

/-- Nothing is left of a dispatch that is still to come. -/
theorem Fresh.serves (h : m.Fresh) (hi : m.dispatches ≤ i) : m.Serves i channel where
  runs f hf hown := by
    have hmem := mem_flights_iff.mpr ⟨hf, hown⟩
    rw [h i hi] at hmem
    cases Multiset.notMem_zero _ hmem
  due timer hmem id outer r halarm := by
    have hdue := mem_due_strand hmem halarm
    rw [h i hi] at hdue
    cases Multiset.notMem_zero _ hdue

theorem deeds_ring (hm : m.Serves i channel) (now : Nat) (h : m.timers = before ++ timer :: after) :
    Deeds i channel m
      (({ m with timers := before ++ after, clock := now } : Machine).ring timer.alarm) := by
  have hmem : timer ∈ m.timers := by
    rw [h]
    exact List.mem_append_right _ List.mem_cons_self
  have hwaited : Deeds i channel m { m with timers := before ++ after, clock := now } :=
    deeds_still { Grows.refl (m := m) with } rfl
  refine hwaited.trans ?_
  generalize { m with timers := before ++ after, clock := now } = waited
  obtain hresume | hdelayed | hother := ring_cases waited timer.alarm
  . obtain ⟨s, closes, outer, r, closed, halarm, hclosed, heq⟩ := hresume
    rw [heq]
    exact (hclosed.deeds fun hwho => hwho).trans (deeds_submit _)
  . obtain ⟨j, id, outer, r, halarm, heq⟩ := hdelayed
    rw [heq]
    refine deeds_sendNow ?_ r
    rintro rfl
    exact hm.due timer hmem id outer r halarm
  . exact hother.2.deeds fun hwho => hwho

theorem Step.deeds (h : m.Step m') (hm : m.Sane) (hserves : m.Serves i channel)
    (hlines : m'.Lines i channel) : Deeds i channel m m' := by
  cases h with
  | work h =>
    obtain ⟨job, started, hstart, rfl⟩ := exists_work_of_runJob? h
    have hrun := hserves.runs _ (holds_of_startJob? hstart)
    have hend := @sameWork_endJob (started.work job).1 (started.work job).2
    have hwork := @deeds_work started i channel job (hm.fits_startJob? hstart) hrun
      (hlines.of_grows hend.grows)
    have hstarted : Deeds i channel m started := by
      refine deeds_still (grows_startJob? hstart) ?_
      obtain ⟨rest, -, rfl⟩ := startJob?_eq_some hstart
      rfl
    exact (hstarted.trans hwork).trans (deeds_still hend.grows hend.journal)
  | reorder hperm => exact deeds_still { Grows.refl (m := m) with } rfl
  | ring now htimers => exact deeds_ring hserves now htimers
  | dispatch request hc =>
    refine deeds_dispatch hc ?_
    rintro rfl
    exact hlines _ request (mem_journal_of_mem_strand received_mem_dispatch)
  | runChain chain context hc => exact deeds_submit _
  | @runFailedPage channel page context e hc =>
    exact (@acts_runFailedPage m (fun _ => False) channel page context e).deeds fun hwho => hwho
  | connect wire hw => exact .single ((Act.connect wire hw : Act (fun _ => False) m _).deed id)
  | close id => exact .single (.close id)
  | registerPage page => exact deeds_still { Grows.refl (m := m) with } rfl
  | addDecorator decorator =>
    exact deeds_still { Grows.refl (m := m) with decorators := List.prefix_append _ _ } rfl

end Steps

end Machine
end PageDispatch
