import PageDispatch.Proofs.Dispatch.Life
import PageDispatch.Proofs.Machine.Reopening

/-!
This module contains where dispatches come from: each of them is started by an operation that leaves
it alone afterwards.
-/

namespace PageDispatch
namespace Machine

/-- What a dispatch that was started on the way from one machine to another owes its strand to. -/
inductive Begets (m m' : Machine) (i : Nat) : Prop
  | intro {b : Machine} {channel outer : ChannelId} {request : Request} {nested : Bool}
    (hb : b.Sane) (hg : m.Grows b) (hi : b.dispatches = i) (hc : channel < b.wires.length)
    (hs : m'.strand i = (b.dispatch request channel outer nested).strand i)
    (hg' : (b.dispatch request channel outer nested).Grows m')

/-- Whether every dispatch that was started on the way is accounted for. -/
def Rears (m m' : Machine) : Prop :=
  ∀ i, m.dispatches ≤ i → i < m'.dispatches → m.Begets m' i

variable {m m' m'' : Machine} {who : Nat → Prop} {i : Nat} {outer : ChannelId} {run : Run}

theorem Begets.of_grows (h : m'.Begets m'' i) (hg : m.Grows m') : m.Begets m'' i := by
  cases h with
  | intro hb hg' hi hc hs hg'' => exact .intro hb (hg.trans hg') hi hc hs hg''

theorem Begets.of_strand_eq (h : m.Begets m' i) (hs : m''.strand i = m'.strand i)
    (hg : m'.Grows m'') : m.Begets m'' i := by
  cases h with
  | intro hb hg' hi hc hs' hg'' => exact .intro hb hg' hi hc (hs.trans hs') (hg''.trans hg)

theorem Rears.of_le (h : m'.dispatches ≤ m.dispatches) : m.Rears m' := by
  intro i hle hlt
  exact absurd (Nat.lt_of_lt_of_le hlt h) (Nat.not_lt_of_le hle)

theorem Rears.frame (h : m.Rears m') (hd : m''.dispatches ≤ m'.dispatches) (hg : m'.Grows m'')
    (hs : ∀ i, m.dispatches ≤ i → m''.strand i = m'.strand i) : m.Rears m'' := by
  intro i hle hlt
  exact (h i hle (Nat.lt_of_lt_of_le hlt hd)).of_strand_eq (hs i hle) hg

theorem Rears.trans (h : m.Rears m') (h' : m'.Rears m'') (hg : m.Grows m') (hg' : m'.Grows m'')
    (hs : ∀ i, m.dispatches ≤ i → i < m'.dispatches → m''.strand i = m'.strand i) :
    m.Rears m'' := by
  intro i hle hlt
  cases Nat.lt_or_ge i m'.dispatches with
  | inl hold => exact (h i hle hold).of_strand_eq (hs i hle hold) hg'
  | inr hnew => exact (h' i hnew hlt).of_grows hg

theorem Acts.dispatches_le (h : Acts who m m') (hwho : ∀ i, who i → i < m.dispatches) :
    m'.dispatches ≤ m.dispatches := by
  induction h with
  | refl => exact Nat.le_refl _
  | @tail mid last h hlast ih =>
    refine Nat.le_trans ?_ ih
    cases hlast with
    | count hw =>
      exact absurd (Nat.lt_of_lt_of_le (hwho _ hw) h.grows.dispatches) (Nat.lt_irrefl _)
    | tune h => exact Nat.le_of_eq h.dispatches
    | _ => exact Nat.le_refl _

theorem Rears.of_acts (hacts : Acts who m m') (hwho : ∀ i, who i → i < m.dispatches) :
    m.Rears m' :=
  .of_le (hacts.dispatches_le hwho)

theorem Rears.acts (h : m.Rears m') (hg : m.Grows m') (hacts : Acts who m' m'')
    (hwho : ∀ i, who i → i < m.dispatches) : m.Rears m'' := by
  refine h.frame ?_ hacts.grows ?_
  . exact hacts.dispatches_le fun i hi => Nat.lt_of_lt_of_le (hwho i hi) hg.dispatches
  . intro i hle
    exact hacts.strand_eq (fun hi => Nat.not_lt_of_le hle (hwho i hi))

theorem dispatches_dispatch {channel : ChannelId} (request : Request) (nested : Bool)
    (hc : channel < m.wires.length) :
    (m.dispatch request channel outer nested).dispatches = m.dispatches + 1 := by
  unfold dispatch
  dsimp only
  generalize hd : m.newDispatch request channel outer nested = d
  have hid : d.id = m.dispatches := by rw [← hd]; rfl
  have hch : d.channel < m.wires.length := by rw [← hd]; exact hc
  have ⟨hreceive, ho⟩ := @acts_receive m (fun i => i = m.dispatches) d rfl hid hch
  have hadmitted := (sameWork_tryAdmit (m := m.receive d))
  have ho' := ho.of_grows hadmitted.grows
  have hch' := Nat.lt_of_lt_of_le hch (hreceive.grows.trans hadmitted.grows).wires
  have hdispatches : (m.receive d).tryAdmit.2.dispatches = m.dispatches + 1 :=
    hadmitted.dispatches
  rw [← hdispatches]
  have hown : ∀ i, i = m.dispatches → i < (m.receive d).tryAdmit.2.dispatches := by
    intro i hi
    omega
  generalize (m.receive d).tryAdmit = done at ho' hch' hown
  obtain ⟨admitted, next⟩ := done
  cases admitted with
  | true =>
    have hacts := acts_advance ho' hch'
    apply Nat.le_antisymm
    . apply hacts.dispatches_le hown
    . apply hacts.grows.dispatches
  | false =>
    have hacts := acts_shed ho'
    apply Nat.le_antisymm
    . apply hacts.dispatches_le hown
    . apply hacts.grows.dispatches

theorem rears_dispatch (hm : m.Sane) {channel : ChannelId} (request : Request) (nested : Bool)
    (hc : channel < m.wires.length) : m.Rears (m.dispatch request channel outer nested) := by
  intro i hle hlt
  rw [dispatches_dispatch request nested hc] at hlt
  exact .intro hm .refl (by omega) hc rfl .refl

theorem rears_perform (hm : m.Sane) (action : UnitAction) : m.Rears (m.perform outer action) := by
  cases action with
  | signal s =>
    exact .of_acts (@acts_signal m (fun _ => False) outer s) nofun
  | registerPage page => exact .of_le (Nat.le_refl _)
  | addDecorator decorator => exact .of_le (Nat.le_refl _)
  | dispatch request =>
    have hconnect : Act (fun _ => False) m (m.connect ⟨.new, none⟩).2 := .connect _ rfl
    have hlt : m.wires.length < (m.connect ⟨.new, none⟩).2.wires.length := by
      rw [length_wires_connect]
      exact Nat.lt_succ_self _
    intro i hle hi
    exact (rears_dispatch (hconnect.sane hm) request true hlt i hle hi).of_grows hconnect.grows

theorem rears_performAll (hm : m.Sane) (actions : List UnitAction) :
    m.Rears (m.performAll outer actions) := by
  induction actions generalizing m with
  | nil => exact .of_le (Nat.le_refl _)
  | cons action rest ih =>
    have hfirst := @acts_perform m (fun _ => True) outer (fun _ _ => trivial) action
    -- the later actions only act on behalf of dispatches that start later still
    have hrest := @acts_performAll (m.perform outer action)
      (fun i => (m.perform outer action).dispatches ≤ i) outer (fun _ hi => hi) rest
    refine (rears_perform hm action).trans (ih (hfirst.sane hm)) hfirst.grows hrest.grows ?_
    intro i _ hlt
    exact hrest.strand_eq (Nat.not_le_of_lt hlt)

theorem rears_evaluate (hm : m.Sane) (hfit : m.Fits run) (position : Nat) (u : HandlerUnit) :
    m.Rears (m.evaluate run position u).1 := by
  unfold evaluate
  split
  . exact .of_le (Nat.le_refl _)
  . next name _ =>
    dsimp only
    have hlog : Acts (fun i => run.owner.id? = some i) m
        (m.log (.evaluating run.owner.id? position name run.view)) :=
      acts_log trivial (fun i hi => ⟨hi, hfit.id_lt hi⟩)
    have hacts := @acts_performAll (m.log (.evaluating run.owner.id? position name run.view))
      (fun _ => True) run.outer (fun _ _ => trivial) (u.evaluate run.view).actions
    have hrears := @rears_performAll _ run.outer (hlog.sane hm) (u.evaluate run.view).actions
    generalize performAll _ _ _ = acted at hacts hrears
    have hg := hlog.grows.trans hacts.grows
    have hjudge := @acts_judge acted (fun i => run.owner.id? = some i)
      (run.edited (u.evaluate run.view).edits)
      (fun i hi => ⟨hi, Nat.lt_of_lt_of_le (hfit.id_lt hi) hg.dispatches⟩) name position
      (u.evaluate run.view).response (u.evaluate run.view).ending
    refine Rears.acts ?_ hg hjudge (fun _ hi => hfit.id_lt hi)
    intro i hle hlt
    exact (hrears i hle hlt).of_grows hlog.grows

theorem rears_process (hm : m.Sane) (hfit : m.Fits run) (position : Nat) (element : ChainElement) :
    m.Rears (m.process run position element).1 := by
  cases element with
  | unit u => exact rears_evaluate hm hfit _ _
  | spec spec =>
    unfold process
    dsimp only
    have hmade := @acts_instantiate m (fun i => run.owner.id? = some i) run
      (fun i hi => ⟨hi, hfit.id_lt hi⟩) spec
    have hnone := hmade.dispatches_le (fun _ hi => hfit.id_lt hi)
    split
    . next h =>
      rw [h] at hmade hnone
      intro i hle hlt
      exact (rears_evaluate (hmade.sane hm) (hfit.of_grows hmade.grows) _ _ i
        (Nat.le_trans hnone hle) hlt).of_grows hmade.grows
    . next failed e h =>
      rw [h] at hmade
      have hfail := hmade.trans (acts_failRun
        (fun i hi => ⟨hi, (hfit.of_grows hmade.grows).id_lt hi⟩) spec.describe (some position)
        (.instantiation e) .empty)
      exact .of_acts hfail (fun _ hi => hfit.id_lt hi)

theorem rears_turn {job : Job} (hm : m.Sane) (hfit : m.Fits job.run) : m.Rears (m.turn job).1 := by
  cases job with
  | step run =>
    change m.Rears (m.step run).1
    unfold step
    split
    . split
      . have hexhausted := @acts_exhausted m (fun i => run.owner.id? = some i) run
          (fun i hi => ⟨hi, hfit.id_lt hi⟩)
        exact .of_acts hexhausted (fun _ hi => hfit.id_lt hi)
      . next remnant _ =>
        exact rears_process hm (hfit.of_precedes (run.resembles_past remnant).precedes) _ _
    . exact .of_le (Nat.le_refl _)
  | resume s r =>
    have hresume := @acts_resume m (fun i => s.run.owner.id? = some i) s
      (fun i hi => ⟨hi, hfit.id_lt hi⟩) r
    exact .of_acts hresume (fun _ hi => hfit.id_lt hi)

theorem dispatches_suspend (s : Suspension) (plan : DeferralPlan) :
    (m.suspend s plan).dispatches ≤ m.dispatches := by
  cases suspend_cases (m := m) s plan with
  | inl hpark =>
    obtain ⟨after, heq, -⟩ := hpark
    rw [heq]
    exact Nat.le_refl _
  | inr hqueue =>
    obtain ⟨closed, hclosed, heq, -⟩ := hqueue
    rw [heq]
    exact hclosed.dispatches_le nofun

theorem rears_work {job : Job} (hm : m.Sane) (hfit : m.Fits job.run) :
    m.Rears (m.work job).1 := by
  have hturn := (acts_turn_of_fits hfit).grows
  have hrears := rears_turn hm hfit
  have hp := keeps_progress_of (keeps_turn (hm.knows hfit))
  have hfit' := hfit.of_grows hturn
  have hne : ∀ {i}, m.dispatches ≤ i → job.run.owner.id? ≠ some i :=
    fun hle hown => Nat.not_lt_of_le hle (hfit.id_lt hown)
  unfold work
  dsimp only
  generalize m.turn job = done at hturn hrears hp hfit'
  obtain ⟨turned, p⟩ := done
  cases p with
  | continues later =>
    refine hrears.frame (Nat.le_refl _) (grows_submit _) ?_
    intro i hle
    refine strand_submit_of_ne ?_
    intro hown
    exact hne hle (hp.owner ▸ hown)
  | suspended s plan =>
    refine hrears.frame (dispatches_suspend s plan) (grows_suspend s plan) ?_
    intro i hle
    refine strand_suspend_of_ne ?_
    intro hown
    exact hne hle (hp.owner ▸ hown)
  | ended result => exact hrears.acts hturn (acts_end hfit' rfl) (fun _ hi => hfit.id_lt hi)
  | escaped => exact hrears.acts hturn (acts_escape hfit' rfl) (fun _ hi => hfit.id_lt hi)

theorem rears_runJob (hm : m.Sane) (h : m.runJob? = some m') : m.Rears m' := by
  obtain ⟨job, started, hstart, rfl⟩ := exists_work_of_runJob? h
  have hg := grows_startJob? hstart
  have hfit := hm.fits_startJob? hstart
  have hdispatches : started.dispatches = m.dispatches := by
    obtain ⟨rest, -, rfl⟩ := startJob?_eq_some hstart
    rfl
  have hend := @sameWork_endJob (started.work job).1 (started.work job).2
  intro i hle hlt
  apply Begets.of_grows _ hg
  apply Begets.of_strand_eq _ hend.strand_eq hend.grows
  apply rears_work (hm.startJob? hstart) hfit i
  . rw [hdispatches]
    assumption
  . rw [← hend.dispatches]
    assumption

theorem rears_ring {before after : List Timer} {timer : Timer} (hm : m.Sane) (now : Nat)
    (h : m.timers = before ++ timer :: after) :
    m.Rears (({ m with timers := before ++ after, clock := now }).ring timer.alarm) := by
  have hdispatches : ({ m with timers := before ++ after, clock := now }).dispatches
      = m.dispatches := rfl
  have hmem : timer ∈ m.timers := by
    rw [h]
    simp
  generalize { m with timers := before ++ after, clock := now } = waited at hdispatches
  apply Rears.of_le
  rw [← hdispatches]
  obtain hresume | hdelayed | hother := ring_cases waited timer.alarm
  . obtain ⟨s, closes, outer, r, closed, -, hclosed, heq⟩ := hresume
    rw [heq]
    exact hclosed.dispatches_le nofun
  . obtain ⟨j, channel, outer, r, halarm, heq⟩ := hdelayed
    have hlt := lt_of_deliver_mem hm hmem halarm
    rw [← hdispatches] at hlt
    have hsend := @acts_sendNow waited (fun other => other = j) outer j
      (fun _ hi => ⟨(Option.some.inj hi).symm, (Option.some.inj hi) ▸ hlt⟩) channel r
    rw [heq]
    apply hsend.dispatches_le
    rintro i rfl
    assumption
  . exact hother.2.dispatches_le nofun

theorem Step.rears (h : m.Step m') (hm : m.Sane) : m.Rears m' := by
  cases h with
  | work h => apply rears_runJob hm h
  | reorder hperm => exact .of_le (Nat.le_refl _)
  | ring now htimers => apply rears_ring hm now htimers
  | dispatch request hc => exact rears_dispatch hm request false hc
  | runChain chain context hc => exact .of_le (Nat.le_refl _)
  | @runFailedPage channel page context e hc =>
    exact .of_acts (@acts_runFailedPage m (fun _ => False) channel page context e) nofun
  | connect wire hw => exact .of_le (Nat.le_refl _)
  | close id => exact .of_acts (@acts_close m (fun _ => False) id) nofun
  | registerPage page => exact .of_le (Nat.le_refl _)
  | addDecorator decorator => exact .of_le (Nat.le_refl _)

/-- What holds of a dispatch when it is started, and still after a step, holds of all of them. -/
theorem Reachable.of_begets {settings : Settings} {holds : Machine → Nat → Prop}
    (hbegets : ∀ {n n' : Machine} {i : Nat}, n.Begets n' i → holds n' i)
    (hstep : ∀ {n n' : Machine} {i : Nat}, Reachable settings n → n.Step n' → i < n.dispatches →
      holds n i → holds n' i)
    (h : Reachable settings m) (hi : i < m.dispatches) : holds m i := by
  obtain ⟨pages, decorators, hreach⟩ := h
  induction hreach generalizing i with
  | refl => exact absurd hi (Nat.not_lt_zero i)
  | @tail mid last hmid hlast ih =>
    have hreachable : Reachable settings mid := ⟨pages, decorators, hmid⟩
    cases Nat.lt_or_ge i mid.dispatches with
    | inl hold => exact hstep hreachable hlast hold (ih hold)
    | inr hnew => exact hbegets (hlast.rears hreachable.sane.1 i hnew hi)

theorem Stirs.rears (h : m.Stirs m') (hm : m.Sane) : m.Rears m' := by
  obtain hstep | ⟨id, wire, hw, rfl⟩ := h.cases
  . exact hstep.rears hm
  . exact .of_le (Nat.le_refl _)

theorem Stirred.of_begets {settings : Settings} {holds : Machine → Nat → Prop}
    (hbegets : ∀ {n n' : Machine} {i : Nat}, Stirred settings n' → n.Begets n' i → holds n' i)
    (hstirs : ∀ {n n' : Machine} {i : Nat}, n.Stirs n' → holds n i → holds n' i)
    (h : Stirred settings m) (hi : i < m.dispatches) : holds m i := by
  induction h generalizing i with
  | new pages decorators => exact absurd hi (Nat.not_lt_zero i)
  | @next m m' hbefore hnext ih =>
    cases Nat.lt_or_ge i m.dispatches with
    | inl hold => exact hstirs hnext (ih hold)
    | inr hnew => exact hbegets (hbefore.next hnext) (hnext.rears hbefore.sane i hnew hi)

end Machine
end PageDispatch
