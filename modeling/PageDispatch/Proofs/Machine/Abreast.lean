import PageDispatch.Proofs.Run.Placement

/-!
This module contains the jobs of two engines side by side. Two machines with the same settings,
whose channels at two places are both open or both closed, do the same for a run at these places,
and their channels are still both open or both closed afterwards.
-/

namespace PageDispatch
namespace Machine

/-- Whether the dispatches that are started between two machines leave a channel as it is. -/
def Spares (first last : Machine) (channel : ChannelId) : Prop :=
  ∀ (b : Machine) (request : Request) (id outer : ChannelId) (nested : Bool), first.Grows b →
    id < b.wires.length → (b.dispatch request id outer nested).Grows last →
    (b.dispatch request id outer nested).isOpen channel = b.isOpen channel

/-- Whether two machines are the same for runs at two places. -/
structure Abreast (p p' : Place) (m m' : Machine) : Prop where
  settings : m'.settings = m.settings
  isOpen : m'.isOpen p'.channel = m.isOpen p.channel

/-- Whether a machine is on the way between two others that spare a channel. -/
structure Between (channel : ChannelId) (first last m : Machine) : Prop where
  spares : first.Spares last channel
  channel : channel < m.wires.length
  grows : first.Grows m

variable {p p' : Place} {m m' n n' first last first' last' : Machine} {run : Run}

theorem Abreast.of_eq (h : Abreast p p' m m') (hs : n.settings = m.settings)
    (hs' : n'.settings = m'.settings) (ho : n.isOpen p.channel = m.isOpen p.channel)
    (ho' : n'.isOpen p'.channel = m'.isOpen p'.channel) : Abreast p p' n n' where
  settings := by rw [hs, hs', h.settings]
  isOpen := by rw [ho, ho', h.isOpen]

theorem Abreast.log (h : Abreast p p' m m') (e e' : Event) :
    Abreast p p' (m.log e) (m'.log e') :=
  h.of_eq rfl rfl rfl rfl

theorem Abreast.close (h : Abreast p p' m m') (hlike : p.Like p') :
    Abreast p p' (m.close p.outer) (m'.close p'.outer) where
  settings := h.settings
  isOpen := by
    rw [isOpen_close, isOpen_close, h.isOpen, if_congr hlike rfl rfl]

theorem settings_call {α : Type} {outer : ChannelId} (c : Call α) :
    (m.call outer c).1.settings = m.settings :=
  (@acts_call m (fun _ => False) outer α c).grows.settings

theorem Abreast.call {α : Type} (h : Abreast p p' m m') (hlike : p.Like p') (c : Call α) :
    Abreast p p' (m.call p.outer c).1 (m'.call p'.outer c).1 where
  settings := by rw [settings_call, settings_call, h.settings]
  isOpen := by
    rw [isOpen_call, isOpen_call, h.isOpen, decide_eq_decide.mpr hlike]

section Perform

theorem Between.of_grows {channel : ChannelId} (h : Between channel first last m) (hg : m.Grows n) :
    Between channel first last n :=
  ⟨h.spares, Nat.lt_of_lt_of_le h.channel hg.wires, h.grows.trans hg⟩

theorem grows_perform {outer : ChannelId} (action : UnitAction) :
    m.Grows (m.perform outer action) :=
  (@acts_perform m (fun _ => True) outer (fun _ _ => trivial) action).grows

theorem grows_performAll {outer : ChannelId} (actions : List UnitAction) :
    m.Grows (m.performAll outer actions) :=
  (@acts_performAll m (fun _ => True) outer (fun _ _ => trivial) actions).grows

/-- A nested request has a channel of its own. -/
theorem isOpen_perform_dispatch {channel outer : ChannelId} {request : Request}
    (h : Between channel first last m) (hlast : (m.perform outer (.dispatch request)).Grows last) :
    (m.perform outer (.dispatch request)).isOpen channel = m.isOpen channel := by
  have hact : Act (fun _ => False) m (m.connect ⟨.new, none⟩).2 := .connect _ rfl
  have hconnect : m.Grows (m.connect ⟨.new, none⟩).2 := hact.grows
  have hlt : m.wires.length < (m.connect ⟨.new, none⟩).2.wires.length := by
    rw [length_wires_connect]
    exact Nat.lt_succ_self _
  exact (h.spares (m.connect ⟨.new, none⟩).2 request m.wires.length outer true
    (h.grows.trans hconnect) hlt hlast).trans (isOpen_connect_of_lt h.channel)

theorem Abreast.perform (h : Abreast p p' m m') (hlike : p.Like p')
    (hb : Between p.channel first last m) (hb' : Between p'.channel first' last' m')
    (action : UnitAction) (hlast : (m.perform p.outer action).Grows last)
    (hlast' : (m'.perform p'.outer action).Grows last') :
    Abreast p p' (m.perform p.outer action) (m'.perform p'.outer action) := by
  cases action with
  | signal s =>
    cases s with
    | note value => exact h.log _ _
    | close => exact h.close hlike
  | registerPage page => exact h.of_eq rfl rfl rfl rfl
  | addDecorator decorator => exact h.of_eq rfl rfl rfl rfl
  | dispatch request =>
    apply h.of_eq
    . exact (grows_perform _).settings
    . exact (grows_perform _).settings
    . exact isOpen_perform_dispatch hb hlast
    . exact isOpen_perform_dispatch hb' hlast'

theorem Abreast.performAll (h : Abreast p p' m m') (hlike : p.Like p')
    (hb : Between p.channel first last m) (hb' : Between p'.channel first' last' m')
    (actions : List UnitAction) (hlast : (m.performAll p.outer actions).Grows last)
    (hlast' : (m'.performAll p'.outer actions).Grows last') :
    Abreast p p' (m.performAll p.outer actions) (m'.performAll p'.outer actions) := by
  induction actions generalizing m m' with
  | nil => exact h
  | cons action rest ih =>
    have hnext := h.perform hlike hb hb' action ((grows_performAll rest).trans hlast)
      ((grows_performAll rest).trans hlast')
    exact ih hnext (hb.of_grows (grows_perform action)) (hb'.of_grows (grows_perform action)) hlast
      hlast'

end Perform

section Moment

/-! Everything up to the last look at the channel. -/

theorem grows_evaluating (hk : m.Knows run) (position : Nat) (name : String) :
    m.Grows (m.log (.evaluating run.owner.id? position name run.view)) := by
  have hlog : Acts (fun _ => True) m (m.log (.evaluating run.owner.id? position name run.view)) :=
    acts_log trivial (fun i hi => ⟨trivial, hk.owner i hi⟩)
  exact hlog.grows

theorem grows_acting (hk : m.Knows run) (position : Nat) (u : HandlerUnit) :
    m.Grows (m.acting run position u) := by
  unfold acting
  split
  . exact .refl
  . exact (grows_evaluating hk position _).trans (grows_performAll _)

theorem Abreast.acting (h : Abreast p p' m m') (hlike : p.Like p')
    (hb : Between p.channel first last m) (hb' : Between p'.channel first' last' m')
    (hk : m.Knows (run.placed p)) (hk' : m'.Knows (run.placed p')) (position : Nat)
    (u : HandlerUnit) (hlast : (m.acting (run.placed p) position u).Grows last)
    (hlast' : (m'.acting (run.placed p') position u).Grows last') :
    Abreast p p' (m.acting (run.placed p) position u) (m'.acting (run.placed p') position u) := by
  unfold Machine.acting at hlast hlast' ⊢
  cases hname : u.name with
  | error payload => exact h
  | ok name =>
    rw [hname] at hlast hlast'
    exact (h.log _ _).performAll hlike (hb.of_grows (grows_evaluating hk position name))
      (hb'.of_grows (grows_evaluating hk' position name)) _ hlast hlast'

theorem Abreast.instantiate (h : Abreast p p' m m') (hlike : p.Like p')
    (hk : m.Knows (run.placed p)) (hk' : m'.Knows (run.placed p')) (spec : UnitSpec) :
    Abreast p p' (m.instantiate (run.placed p) spec).1 (m'.instantiate (run.placed p') spec).1 := by
  have hmade : (m'.settings.registry.instantiate m'.patterns spec (run.placed p').context).1
      = (m.settings.registry.instantiate m.patterns spec (run.placed p).context).1 := by
    rw [Registry.instantiate_fst hk'.patterns, Registry.instantiate_fst hk.patterns, h.settings]
    rfl
  rw [instantiate_fst, instantiate_fst, hmade]
  refine Abreast.call ?_ hlike _
  exact h.of_eq rfl rfl rfl rfl

theorem Abreast.facing (h : Abreast p p' m m') (hlike : p.Like p')
    (hb : Between p.channel first last m) (hb' : Between p'.channel first' last' m')
    (hk : m.Knows (run.placed p)) (hk' : m'.Knows (run.placed p')) (position : Nat)
    (element : ChainElement) (hlast : (m.facing (run.placed p) position element).Grows last)
    (hlast' : (m'.facing (run.placed p') position element).Grows last') :
    Abreast p p' (m.facing (run.placed p) position element)
      (m'.facing (run.placed p') position element) := by
  cases element with
  | unit u => exact h.acting hlike hb hb' hk hk' position u hlast hlast'
  | spec spec =>
    have hnext := h.instantiate hlike hk hk' spec
    have hg := grows_instantiate hk spec
    have hg' := grows_instantiate hk' spec
    have hmade := instantiate_snd hk spec
    have hmade' := instantiate_snd hk' spec
    rw [h.settings] at hmade'
    have hsame : (run.placed p').made m.settings spec = (run.placed p).made m.settings spec := rfl
    rw [hsame, ← hmade] at hmade'
    unfold Machine.facing at hlast hlast' ⊢
    dsimp only at hlast hlast' ⊢
    generalize m.instantiate (run.placed p) spec = done at hnext hg hmade' hlast
    generalize m'.instantiate (run.placed p') spec = done' at hnext hg' hmade' hlast'
    obtain ⟨made, result⟩ := done
    obtain ⟨made', result'⟩ := done'
    dsimp only at hnext hg hg' hmade'
    subst hmade'
    cases result' with
    | ok u =>
      exact hnext.acting hlike (hb.of_grows hg) (hb'.of_grows hg') (hk.of_grows hg)
        (hk'.of_grows hg') position u hlast hlast'
    | error e => exact hnext

variable {job : Job}

theorem grows_facing (hk : m.Knows run) (position : Nat) (element : ChainElement) :
    m.Grows (m.facing run position element) := by
  cases element with
  | unit u => exact grows_acting hk position u
  | spec spec =>
    have hg := grows_instantiate hk spec
    unfold Machine.facing
    dsimp only
    generalize m.instantiate run spec = done at hg
    obtain ⟨made, result⟩ := done
    cases result with
    | ok u => exact hg.trans (grows_acting (hk.of_grows hg) position u)
    | error e => exact hg

theorem grows_moment (hk : m.Knows job.run) : m.Grows (m.moment job) := by
  cases job with
  | resume s r => exact .refl
  | step run =>
    dsimp only [moment]
    split
    . exact .refl
    . next remnant _ =>
      exact @grows_facing m (run.past remnant) ⟨hk.channel, hk.owner, hk.patterns⟩ _ _

theorem Abreast.moment (h : Abreast p p' m m') (hlike : p.Like p')
    (hb : Between p.channel first last m) (hb' : Between p'.channel first' last' m')
    (hk : m.Knows (job.placed p).run) (hk' : m'.Knows (job.placed p').run)
    (hlast : (m.moment (job.placed p)).Grows last)
    (hlast' : (m'.moment (job.placed p')).Grows last') :
    Abreast p p' (m.moment (job.placed p)) (m'.moment (job.placed p')) := by
  cases job with
  | resume s r => exact h
  | step run =>
    have hnext : (run.placed p).remnant.next? = run.remnant.next? := rfl
    have hnext' : (run.placed p').remnant.next? = run.remnant.next? := rfl
    dsimp only [Machine.moment, Job.placed] at hlast hlast' ⊢
    rw [hnext] at hlast ⊢
    rw [hnext'] at hlast' ⊢
    cases hremnant : run.remnant.next? with
    | none => exact h
    | some next =>
      obtain ⟨element, remnant⟩ := next
      rw [hremnant] at hlast hlast'
      exact @facing p p' m m' first last first' last' (run.past remnant) h hlike hb hb'
        ⟨hk.channel, hk.owner, hk.patterns⟩ ⟨hk'.channel, hk'.owner, hk'.patterns⟩ _ element hlast
        hlast'

theorem Abreast.glance_eq (h : Abreast p p' m m')
    (hmoment : Abreast p p' (m.moment (job.placed p)) (m'.moment (job.placed p'))) :
    m'.glance (job.placed p') = m.glance (job.placed p) := by
  cases job with
  | resume s r => exact congrArg Glance.seen h.isOpen
  | step run =>
    have hmoment := hmoment.isOpen
    dsimp only [glance, Job.placed, Run.placed] at hmoment ⊢
    rw [h.isOpen, hmoment]

end Moment

section Take

/-! What becomes of the run then. -/

theorem Abreast.failRun (h : Abreast p p' m m') (hlike : p.Like p') (unit : String)
    (position : Option Nat) (failure : UnitFailure) (own : Accumulator) :
    Abreast p p' (m.failRun (run.placed p) unit position failure own).1
      (m'.failRun (run.placed p') unit position failure own).1 := by
  have hopen : m'.isOpen (run.placed p').channel = m.isOpen (run.placed p).channel := h.isOpen
  have hreport : (run.placed p').report unit position failure
      = (run.placed p).report unit position failure := rfl
  rw [failRun_fst, failRun_fst, fail_fst, fail_fst, hopen, h.settings, hreport]
  split
  . exact (h.log _ _).call hlike _
  . exact h

theorem respond_fst {unit : String} {position : Nat} {status : Status} {value : Json}
    {own : Accumulator} :
    (m.respond run unit position status (some (.structured value)) own).1
      =
    match (m.settings.codec value).result with
    | .ok (.error e) =>
      ((m.call run.outer (m.settings.codec value)).1.failRun run unit (some position) (.error e)
        (own.setStatus status)).1
    | _ => (m.call run.outer (m.settings.codec value)).1 := by
  unfold Machine.respond
  dsimp only
  generalize hdone : m.call run.outer (m.settings.codec value) = done
  have hresult : (m.settings.codec value).result = done.2 := by rw [← hdone]; rfl
  obtain ⟨called, result⟩ := done
  rw [hresult]
  match result with
  | .ok (.ok encoded) => rfl
  | .ok (.error e) => rfl
  | .error payload => rfl

theorem Abreast.respond (h : Abreast p p' m m') (hlike : p.Like p') (unit : String)
    (position : Nat) (status : Status) (message : Option ResponseMessage) (own : Accumulator) :
    Abreast p p' (m.respond (run.placed p) unit position status message own).1
      (m'.respond (run.placed p') unit position status message own).1 := by
  cases message with
  | none => exact h
  | some message =>
    cases message with
    | text s => exact h
    | structured value =>
      have hcall := h.call hlike (m.settings.codec value)
      rw [respond_fst, respond_fst, h.settings]
      split
      . exact hcall.failRun hlike _ _ _ _
      . exact hcall

theorem Abreast.apply (h : Abreast p p' m m') (hlike : p.Like p') (unit : String)
    (position : Nat) (outcome : Outcome) (own : Accumulator) :
    Abreast p p' (m.apply (run.placed p) unit position outcome own).1
      (m'.apply (run.placed p') unit position outcome own).1 := by
  have hopen : m'.isOpen (run.placed p').channel = m.isOpen (run.placed p).channel := h.isOpen
  have hlocked : (run.placed p').locked = (run.placed p).locked := rfl
  unfold Machine.apply
  rw [hopen]
  split
  . cases outcome with
    | rejected =>
      dsimp only
      rw [hlocked]
      split
      . exact h.failRun hlike _ _ _ _
      . exact h
    | consumed objects locked => exact h
    | respondWith status message => exact h.respond hlike _ _ _ _ _
  . exact h

theorem Abreast.take (h : Abreast p p' m m') (hlike : p.Like p') (v : Ruling) :
    Abreast p p' (m.take (run.placed p) v).1 (m'.take (run.placed p') v).1 := by
  cases v with
  | decides unit position outcome own => exact h.apply hlike _ _ _ _
  | fails unit position failure own => exact h.failRun hlike _ _ _ _
  | defers unit position own plan => exact h
  | runsOut => exact h
  | escapes => exact h

theorem grows_take (ho : m.Allows (fun _ => True) run.owner.id?) (v : Ruling) :
    m.Grows (m.take run v).1 := by
  cases v with
  | decides unit position outcome own => exact (acts_apply ho _ _ _ _).grows
  | fails unit position failure own => exact (acts_failRun ho _ _ _ _).grows
  | defers unit position own plan => exact .refl
  | runsOut => exact .refl
  | escapes => exact .refl

variable {job : Job}

theorem grows_turn_of_moment (hk : m.Knows job.run) (hg : m.glance job ≠ .unseen) :
    (m.moment job).Grows (m.turn job).1 := by
  have howner := (@Job.resembles_stance m.settings job).owner
  rw [turn_eq hk hg]
  apply grows_take
  intro i hi
  rw [howner] at hi
  exact ⟨trivial, Nat.lt_of_lt_of_le (hk.owner i hi) (grows_moment hk).dispatches⟩

theorem glance_step_eq_unseen_iff :
    m.glance (.step run) = .unseen ↔ m.isOpen run.channel = false := by
  unfold glance
  dsimp only
  cases m.isOpen run.channel with
  | true =>
    constructor
    . intro hunseen
      cases hunseen
    . intro hclosed
      cases hclosed
  | false => exact ⟨fun _ => rfl, fun _ => rfl⟩

theorem Abreast.unseen_iff (h : Abreast p p' m m') :
    m'.glance (job.placed p') = .unseen ↔ m.glance (job.placed p) = .unseen := by
  cases job with
  | resume s r => exact ⟨nofun, nofun⟩
  | step run =>
    have hopen : m'.isOpen (run.placed p').channel = m.isOpen (run.placed p).channel := h.isOpen
    dsimp only [Job.placed]
    rw [glance_step_eq_unseen_iff, glance_step_eq_unseen_iff, hopen]

theorem turn_of_unseen (h : m.glance job = .unseen) :
    m.turn job = (m, .ended (.abandoned job.run.evaluated)) := by
  cases glance_cases m job with
  | inl hclosed => exact hclosed.2
  | inr hseen =>
    rw [h] at hseen
    cases hseen

/-- A job sees the same in both machines, and leaves them abreast. -/
theorem Abreast.turn (h : Abreast p p' m m') (hlike : p.Like p')
    (hb : Between p.channel first last m) (hb' : Between p'.channel first' last' m')
    (hk : m.Knows (job.placed p).run) (hk' : m'.Knows (job.placed p').run)
    (hlast : (m.turn (job.placed p)).1.Grows last)
    (hlast' : (m'.turn (job.placed p')).1.Grows last') :
    m'.glance (job.placed p') = m.glance (job.placed p) ∧
      Abreast p p' (m.turn (job.placed p)).1 (m'.turn (job.placed p')).1 := by
  cases Classical.em (m.glance (job.placed p) = .unseen) with
  | inl hg =>
    have hg' := h.unseen_iff.mpr hg
    rw [hg, hg', turn_of_unseen hg, turn_of_unseen hg']
    exact ⟨rfl, h⟩
  | inr hg =>
    have hg' : m'.glance (job.placed p') ≠ .unseen := fun heq => hg (h.unseen_iff.mp heq)
    have hmoment := h.moment hlike hb hb' hk hk' ((grows_turn_of_moment hk hg).trans hlast)
      ((grows_turn_of_moment hk' hg').trans hlast')
    have hstance := @job_stance_placed p m.settings job
    have hstance' := @job_stance_placed p' m.settings job
    refine ⟨h.glance_eq hmoment, ?_⟩
    rw [turn_eq hk hg, turn_eq hk' hg', h.settings, hstance.run, hstance.ruling, hstance'.run,
      hstance'.ruling]
    exact hmoment.take hlike _

end Take

end Machine
end PageDispatch
