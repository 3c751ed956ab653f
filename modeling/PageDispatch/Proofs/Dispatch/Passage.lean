import PageDispatch.Proofs.Dispatch.Alongside
import PageDispatch.Proofs.Dispatch.Apart
import PageDispatch.Proofs.Dispatch.Lock

/-!
This module contains dispatches on their way through an engine. Only few steps are steps of a
certain dispatch, and what happens between two of them leaves it alone. Two dispatches that set out
alike are still alike after as many steps of their own.
-/

namespace PageDispatch

namespace Strand

variable {s : Strand} {f g : Flight} {es : List Event} {r r' : Response}
  {channel channel' : ChannelId}

theorem eq_of_fly (h : s.fly g = ⟨{f}, 0, es⟩) : g = f ∧ s = ⟨0, 0, es⟩ := by
  obtain ⟨flights, due, events⟩ := s
  injection h with hflights hdue hevents
  obtain ⟨rfl, rfl⟩ := eq_of_add_singleton_eq hflights
  subst hdue hevents
  exact ⟨rfl, rfl⟩

theorem eq_of_owe (h : s.owe channel' r' = ⟨0, {(channel, r)}, es⟩) :
    channel' = channel ∧ r' = r ∧ s = ⟨0, 0, es⟩ := by
  obtain ⟨flights, due, events⟩ := s
  injection h with hflights hdue hevents
  obtain ⟨rfl, heq⟩ := eq_of_add_singleton_eq hdue
  injection heq with hchannel hr
  subst hflights hevents
  exact ⟨hchannel, hr, rfl⟩

theorem flights_fly_ne : (s.fly f).flights ≠ 0 := add_singleton_ne_zero _ _

theorem due_owe_ne : (s.owe channel r).due ≠ 0 := add_singleton_ne_zero _ _

end Strand

namespace Machine

variable {m n : Machine} {i : Nat}

/-- A step of a certain dispatch: its job, the wake of its run, or the end of its delay. -/
inductive Owns (i : Nat) (m : Machine) : Machine → Prop
  | works {job : Job} {started : Machine} (hstart : m.startJob? = some (job, started))
    (hown : job.run.owner.id? = some i) :
    Owns i m ((started.work job).1.endJob (started.work job).2)
  | wakes {waited : Machine} {s : Suspension} {closes : Bool} {outer : ChannelId} {r : Resolved}
    (hsettings : waited.settings = m.settings) (hwires : waited.wires = m.wires)
    (hown : s.run.owner.id? = some i)
    (hs : m.strand i = (waited.strand i).fly (.parked s closes outer r)) :
    Owns i m ((if closes then waited.close outer else waited).submit (.resume s r))
  | delivers {waited : Machine} {channel outer : ChannelId} {r : Response}
    (hsettings : waited.settings = m.settings) (hwires : waited.wires = m.wires)
    (hs : m.strand i = (waited.strand i).owe channel r) :
    Owns i m (waited.sendNow i channel outer r)

theorem owns_work (hm : m.Sane) (hi : i < m.dispatches) (h : m.runJob? = some n)
    (hne : n.strand i ≠ m.strand i) : m.Owns i n := by
  obtain ⟨job, started, hstart, rfl⟩ := exists_work_of_runJob? h
  cases Decidable.em (job.run.owner.id? = some i) with
  | inl hown => exact .works hstart hown
  | inr hother => exact absurd (strand_job_of_ne hm hstart hother hi) hne

section Ring

variable {waited : Machine} {alarm : Alarm}

theorem acts_closing (closes : Bool) (outer : ChannelId) :
    Acts (fun _ => False) m (if closes then m.close outer else m) := by
  split
  . exact acts_close outer
  . exact .refl

theorem owns_ring (hsettings : waited.settings = m.settings) (hwires : waited.wires = m.wires)
    (hlt : ∀ j channel outer r, alarm = .deliver j channel outer r → j < waited.dispatches)
    (hs : m.strand i =
      { flights := (waited.strand i).flights + ((alarm.flight? i).toList : Multiset Flight)
        due := (waited.strand i).due + ((alarm.delivery? i).toList : Multiset _)
        events := (waited.strand i).events })
    (hne : (waited.ring alarm).strand i ≠ m.strand i) : m.Owns i (waited.ring alarm) := by
  have hidle : alarm.flight? i = none → alarm.delivery? i = none →
      m.Owns i (waited.ring alarm) := by
    intro hflight hdelivery
    apply absurd _ hne
    rw [strand_ring_of_none hlt hflight hdelivery, hs, hflight, hdelivery]
    simp
  cases alarm with
  | deliver j channel outer r =>
    cases Nat.decEq j i with
    | isTrue hj =>
      subst hj
      apply Owns.delivers hsettings hwires
      rw [hs]
      simp [Alarm.flight?, Alarm.delivery?, Strand.owe]
    | isFalse hj => exact hidle rfl (if_neg hj)
  | resolve slot closes outer r =>
    cases slot with
    | registered s =>
      cases Decidable.em (s.run.owner.id? = some i) with
      | inl hown =>
        apply Owns.wakes hsettings hwires hown
        rw [hs]
        simp [Alarm.flight?, Alarm.delivery?, hown, Strand.fly]
      | inr hother => exact hidle (if_neg hother) rfl
    | waiting => exact hidle rfl rfl
    | resolved first => exact hidle rfl rfl
    | done => exact hidle rfl rfl

end Ring

/-- Whatever changes a dispatch is a step of its own. -/
theorem Step.owns (h : m.Step n) (hm : m.Sane) (hi : i < m.dispatches)
    (hne : n.strand i ≠ m.strand i) : m.Owns i n := by
  cases h with
  | work h => exact owns_work hm hi h hne
  | reorder hperm =>
    apply absurd _ hne
    simp only [strand]
    rw [Multiset.coe_eq_coe.mpr (hperm.filterMap _)]
  | @ring before after timer now htimers =>
    have hstrand := @strand_takeTimer m i before after timer now htimers
    have hmem : timer ∈ m.timers := by
      rw [htimers]
      simp
    apply owns_ring _ _ _ hstrand hne
    . rfl
    . rfl
    . intro j channel outer r halarm
      exact @lt_of_deliver_mem m timer j channel outer r hm hmem halarm
  | @dispatch channel request hc =>
    have hacts := @acts_dispatch m (fun j => m.dispatches ≤ j) channel channel (Nat.le_refl _) hc
      request false
    exact absurd (hacts.strand_eq (Nat.not_le_of_lt hi)) hne
  | runChain chain context hc =>
    apply absurd _ hne
    apply strand_submit_of_ne
    intro heq
    cases heq
  | @runFailedPage channel page context e hc =>
    have hacts := @acts_runFailedPage m (fun _ => False) channel page context e
    exact absurd (hacts.strand_eq id) hne
  | connect wire hw => exact absurd rfl hne
  | close id =>
    have hacts := @acts_close m (fun _ => False) id
    exact absurd (hacts.strand_eq (fun h => h)) hne
  | registerPage page => exact absurd rfl hne
  | addDecorator decorator => exact absurd rfl hne

section Even

variable {p p' : Place} {m' n' : Machine}

/-- Nothing of a dispatch waits any more. -/
def Rests (m : Machine) (i : Nat) : Prop := (m.strand i).flights = 0 ∧ (m.strand i).due = 0

/-- What is told of a dispatch, whatever place it has and however long it takes. -/
def tale (m : Machine) (i : Nat) : List Event := (m.strand i).events.map Event.plain

theorem Grows.tale_prefix (h : m.Grows n) (i : Nat) : m.tale i <+: n.tale i :=
  (h.journal.filter _).map _

theorem rests_iff_of_strand_eq (h : n.strand i = m.strand i) : n.Rests i ↔ m.Rests i := by
  unfold Rests
  rw [h]

theorem Even.tale_eq (h : Even p p' m m') : m'.tale p'.id = m.tale p.id := by
  have hstrands := h.strands
  unfold tale
  generalize m.strand p.id = s at hstrands
  generalize m'.strand p'.id = s' at hstrands
  cases hstrands with
  | flies hf hagree hes => exact hes
  | owes hagree hes => exact hes
  | rests hes => exact hes

theorem Owns.not_rests (h : m.Owns i n) : ¬m.Rests i := by
  rintro ⟨hflights, hdue⟩
  cases h with
  | works hstart hown =>
    rw [strand_startJob?_of_eq hstart hown] at hflights
    exact Strand.flights_fly_ne hflights
  | wakes hsettings hwires hown hs =>
    rw [hs] at hflights
    exact Strand.flights_fly_ne hflights
  | delivers hsettings hwires hs =>
    rw [hs] at hdue
    exact Strand.due_owe_ne hdue

theorem Even.rests_iff (h : Even p p' m m') : m'.Rests p'.id ↔ m.Rests p.id := by
  have hstrands := h.strands
  unfold Rests
  generalize m.strand p.id = s at hstrands
  generalize m'.strand p'.id = s' at hstrands
  cases hstrands with
  | flies hf hagree hes =>
    constructor
    . exact fun hrests => absurd hrests.1 (Multiset.singleton_ne_zero _)
    . exact fun hrests => absurd hrests.1 (Multiset.singleton_ne_zero _)
  | owes hagree hes =>
    constructor
    . exact fun hrests => absurd hrests.2 (Multiset.singleton_ne_zero _)
    . exact fun hrests => absurd hrests.2 (Multiset.singleton_ne_zero _)
  | rests hes => exact ⟨fun _ => ⟨rfl, rfl⟩, fun _ => ⟨rfl, rfl⟩⟩

section Inversion

variable {es : List Event}

theorem Owns.of_queued {job : Job} (h : m.Owns i n) (hs : m.strand i = ⟨{.queued job}, 0, es⟩) :
    ∃ started, m.startJob? = some (job, started) ∧ started.strand i = ⟨0, 0, es⟩ ∧
      job.run.owner.id? = some i ∧ n = (started.work job).1.endJob (started.work job).2 := by
  cases h with
  | @works job' started hstart hown =>
    rw [strand_startJob?_of_eq hstart hown] at hs
    have ⟨hjob, hstarted⟩ := Strand.eq_of_fly hs
    injection hjob with hjob
    subst hjob
    exact ⟨started, hstart, hstarted, hown, rfl⟩
  | wakes hsettings hwires hown hs' =>
    rw [hs'] at hs
    cases (Strand.eq_of_fly hs).1
  | delivers hsettings hwires hs' =>
    rw [hs'] at hs
    exact absurd (congrArg Strand.due hs) Strand.due_owe_ne

theorem Owns.of_parked {s : Suspension} {closes : Bool} {outer : ChannelId} {r : Resolved}
    (h : m.Owns i n) (hs : m.strand i = ⟨{.parked s closes outer r}, 0, es⟩) :
    ∃ waited : Machine, waited.settings = m.settings ∧ waited.wires = m.wires ∧
      waited.strand i = ⟨0, 0, es⟩ ∧ s.run.owner.id? = some i ∧
        n = (if closes then waited.close outer else waited).submit (.resume s r) := by
  cases h with
  | works hstart hown =>
    rw [strand_startJob?_of_eq hstart hown] at hs
    cases (Strand.eq_of_fly hs).1
  | @wakes waited s' closes' outer' r' hsettings hwires hown hs' =>
    rw [hs'] at hs
    have ⟨hparked, hwaited⟩ := Strand.eq_of_fly hs
    injection hparked with hsuspension hcloses houter hr
    subst hsuspension hcloses houter hr
    exact ⟨waited, hsettings, hwires, hwaited, hown, rfl⟩
  | delivers hsettings hwires hs' =>
    rw [hs'] at hs
    exact absurd (congrArg Strand.due hs) Strand.due_owe_ne

theorem Owns.of_due {channel : ChannelId} {r : Response} (h : m.Owns i n)
    (hs : m.strand i = ⟨0, {(channel, r)}, es⟩) :
    ∃ (waited : Machine) (outer : ChannelId), waited.settings = m.settings ∧
      waited.wires = m.wires ∧ waited.strand i = ⟨0, 0, es⟩ ∧
        n = waited.sendNow i channel outer r := by
  cases h with
  | works hstart hown =>
    rw [strand_startJob?_of_eq hstart hown] at hs
    exact absurd (congrArg Strand.flights hs) Strand.flights_fly_ne
  | wakes hsettings hwires hown hs' =>
    rw [hs'] at hs
    exact absurd (congrArg Strand.flights hs) Strand.flights_fly_ne
  | @delivers waited channel' outer r' hsettings hwires hs' =>
    rw [hs'] at hs
    have ⟨hchannel, hr, hwaited⟩ := Strand.eq_of_owe hs
    subst hchannel hr
    exact ⟨waited, outer, hsettings, hwires, hwaited, rfl⟩

end Inversion

theorem wires_startJob? {job : Job} {started : Machine} (h : m.startJob? = some (job, started)) :
    started.wires = m.wires := by
  obtain ⟨rest, -, rfl⟩ := startJob?_eq_some h
  rfl

theorem exists_owner_of_id? {run : Run} {i : Nat} (h : run.owner.id? = some i) :
    ∃ d, run.owner = .dispatch d := by
  cases howner : run.owner with
  | caller =>
    rw [howner] at h
    cases h
  | dispatch d => exact ⟨d, rfl⟩

theorem Level.close (h : Level p p' m m') (hlike : p.Like p') (closes : Bool) :
    Level p p' (if closes then m.close p.outer else m)
      (if closes then m'.close p'.outer else m') := by
  refine h.of_acts (acts_closing _ _) (acts_closing _ _) ?_
  cases closes with
  | true => exact h.toAbreast.close hlike
  | false => exact h.toAbreast

theorem Even.level {l l' : Machine} {es es' : List Event} (h : Even p p' m m')
    (hagree : m'.isOpen p'.channel = m.isOpen p.channel)
    (hes : es'.map Event.plain = es.map Event.plain) (hset : l.settings = m.settings)
    (hset' : l'.settings = m'.settings) (hwires : l.wires = m.wires) (hwires' : l'.wires = m'.wires)
    (hbare : l.strand p.id = ⟨0, 0, es⟩) (hbare' : l'.strand p'.id = ⟨0, 0, es'⟩) :
    Level p p' l l' := by
  refine ⟨⟨?_, ?_⟩, es, es', hbare, hbare', hes⟩
  . rw [hset, hset', h.settings]
  . rw [isOpen_eq_of_wires_eq hwires, isOpen_eq_of_wires_eq hwires', hagree]

/-- A step of its own takes two dispatches that are even to where they are even again. -/
theorem Even.owns (h : Even p p' m m') (hlike : p.Like p') (hm : m.Sane) (hm' : m'.Sane)
    (hc : p.channel < m.wires.length) (hc' : p'.channel < m'.wires.length)
    (hspares : m.Spares n p.channel) (hspares' : m'.Spares n' p'.channel)
    (hd : n.decorators = m.decorators) (hd' : n'.decorators = m'.decorators)
    (hsame : m'.decorators = m.decorators) (hown : m.Owns p.id n) (hown' : m'.Owns p'.id n') :
    Even p p' n n' := by
  have hstrands := h.strands
  generalize hs : m.strand p.id = s at hstrands
  generalize hs' : m'.strand p'.id = s' at hstrands
  cases hstrands with
  | @flies f es es' hf hagree hes =>
    cases f with
    | queued job =>
      have hjob : job.placed p = job := Flight.queued.inj hf
      obtain ⟨started, hstart, hbare, hid, rfl⟩ := hown.of_queued hs
      obtain ⟨started', hstart', hbare', -, rfl⟩ := hown'.of_queued hs'
      obtain ⟨owner, howner⟩ := exists_owner_of_id? hid
      have hg := grows_startJob? hstart
      have hg' := grows_startJob? hstart'
      have hend := @sameWork_endJob (started.work job).1 (started.work job).2
      have hend' := @sameWork_endJob (started'.work (job.placed p')).1
        (started'.work (job.placed p')).2
      have hfit := hm.fits_startJob? hstart
      have hfit' := hm'.fits_startJob? hstart'
      have hlast := (grows_work hfit).trans hend.grows
      have hlast' := (grows_work hfit').trans hend'.grows
      have hdecorators := hg.decorators_eq hlast hd
      have hdecorators' := hg'.decorators_eq hlast' hd'
      have hlevel := h.level hagree hes hg.settings hg'.settings (wires_startJob? hstart)
        (wires_startJob? hstart') hbare hbare'
      have hwork := hlevel.work hlike hjob howner
        ⟨hspares, Nat.lt_of_lt_of_le hc hg.wires, hg⟩
        ⟨hspares', Nat.lt_of_lt_of_le hc' hg'.wires, hg'⟩ hfit (hm.startJob? hstart) hfit'
        (hm'.startJob? hstart') hend.grows hend'.grows (hd.trans hdecorators.symm)
        (hd'.trans hdecorators'.symm) (by rw [hdecorators, hdecorators', hsame])
      exact hwork.of_sameWork hend hend'
    | parked s closes outer r =>
      injection hf with hsuspension hcloses houter hr
      obtain ⟨waited, hset, hwires, hbare, hid, rfl⟩ := hown.of_parked hs
      obtain ⟨waited', hset', hwires', hbare', -, rfl⟩ := hown'.of_parked hs'
      obtain ⟨owner, howner⟩ := exists_owner_of_id? hid
      have hlevel := h.level hagree hes hset hset' hwires hwires' hbare hbare'
      have hclosed := hlevel.close hlike closes
      have hresume : (Job.resume s r).run.owner = .dispatch owner := howner
      have hresumed := hclosed.submit hresume
      rw [houter] at hresumed
      dsimp only [Job.placed] at hresumed
      rw [hsuspension] at hresumed
      exact hresumed
  | owes hagree hes =>
    obtain ⟨waited, outer, hset, hwires, hbare, rfl⟩ := hown.of_due hs
    obtain ⟨waited', outer', hset', hwires', hbare', rfl⟩ := hown'.of_due hs'
    have hlevel := h.level hagree hes hset hset' hwires hwires' hbare hbare'
    exact hlevel.sendNow _ _ _
  | rests hes => exact absurd (by rw [Rests, hs]; exact ⟨rfl, rfl⟩) hown.not_rests

/-- What others do leaves two dispatches even, if it leaves their channels as they are. -/
theorem Even.of_strand_eq (h : Even p p' m m') (hset : n.settings = m.settings)
    (hset' : n'.settings = m'.settings) (hs : n.strand p.id = m.strand p.id)
    (hs' : n'.strand p'.id = m'.strand p'.id)
    (hc : m.Rests p.id ∨ n.isOpen p.channel = m.isOpen p.channel)
    (hc' : m'.Rests p'.id ∨ n'.isOpen p'.channel = m'.isOpen p'.channel) : Even p p' n n' where
  settings := by rw [hset, hset', h.settings]
  strands := by
    rw [hs, hs']
    have hrests := h.rests_iff
    have hstrands := h.strands
    cases Classical.em (m.Rests p.id) with
    | inl hr =>
      unfold Rests at hr
      generalize m.strand p.id = s at hstrands hr
      generalize m'.strand p'.id = s' at hstrands
      cases hstrands with
      | flies hf hagree hes => exact absurd hr.1 (Multiset.singleton_ne_zero _)
      | owes hagree hes => exact absurd hr.2 (Multiset.singleton_ne_zero _)
      | rests hes => exact .rests hes
    | inr hr =>
      rw [hc.resolve_left hr, hc'.resolve_left (fun hr' => hr (hrests.mp hr'))]
      exact hstrands

end Even

end Machine

/-- A dispatch as it is started in an engine. -/
structure Entry where
  engine : Machine
  request : Request
  channel : ChannelId
  outer : ChannelId
  nested : Bool

namespace Entry

open Machine

def id (e : Entry) : Nat := e.engine.dispatches

def place (e : Entry) : Place :=
  ⟨e.engine.dispatches, e.nested, e.channel, e.outer, e.engine.clock⟩

def entered (e : Entry) : Machine := e.engine.dispatch e.request e.channel e.outer e.nested

structure Admitted (e : Entry) : Prop where
  sane : e.engine.Sane
  channel : e.channel < e.engine.wires.length
  vacant : e.engine.pool.isFull = false

/-- Whether two dispatches set out alike, the places left aside. -/
structure Alike (e e' : Entry) : Prop where
  settings : e'.engine.settings = e.engine.settings
  pages : e'.engine.pages = e.engine.pages
  decorators : e'.engine.decorators = e.engine.decorators
  request : e'.request = e.request
  like : e.place.Like e'.place
  isOpen : e'.engine.isOpen e'.channel = e.engine.isOpen e.channel

/-- Whether a machine is where a dispatch took so many steps of its own, the others any number. -/
inductive Goes (e : Entry) : Nat → Machine → Prop
  | enters {n : Machine} (hn : n.Sane) (hg : e.entered.Grows n)
    (hs : n.strand e.id = e.entered.strand e.id)
    (hc : e.entered.Rests e.id ∨ n.isOpen e.channel = e.entered.isOpen e.channel) : Goes e 0 n
  | waits {k : Nat} {n n' : Machine} (h : Goes e k n) (hstep : n.Step n')
    (hs : n'.strand e.id = n.strand e.id)
    (hc : n.Rests e.id ∨ n'.isOpen e.channel = n.isOpen e.channel) : Goes e k n'
  | goes {k : Nat} {n n' : Machine} (h : Goes e k n) (hstep : n.Step n')
    (hs : n'.strand e.id ≠ n.strand e.id) (hspares : n.Spares n' e.channel) : Goes e (k + 1) n'

variable {e e' : Entry} {k k' : Nat} {n n' : Machine}

theorem Admitted.entered (h : e.Admitted) : e.entered.Sane ∧ e.engine.Grows e.entered := by
  have hacts := @acts_dispatch e.engine (fun _ => True) e.outer e.channel trivial h.channel
    e.request e.nested
  exact ⟨hacts.sane h.sane, hacts.grows⟩

theorem Goes.sane (h : e.Goes k n) : n.Sane ∧ e.entered.Grows n := by
  induction h with
  | enters hn hg hs hc => exact ⟨hn, hg⟩
  | waits h hstep hs hc ih =>
    have ⟨hsane, hgrows⟩ := hstep.sane ih.1
    exact ⟨hsane, ih.2.trans hgrows⟩
  | goes h hstep hs hspares ih =>
    have ⟨hsane, hgrows⟩ := hstep.sane ih.1
    exact ⟨hsane, ih.2.trans hgrows⟩

theorem Goes.id_lt (h : e.Goes k n) (he : e.Admitted) : e.id < n.dispatches := by
  have hlt : e.id < e.entered.dispatches := by
    unfold Entry.entered
    rw [dispatches_dispatch e.request e.nested he.channel]
    exact Nat.lt_succ_self _
  exact Nat.lt_of_lt_of_le hlt h.sane.2.dispatches

theorem Goes.channel_lt (h : e.Goes k n) (he : e.Admitted) : e.channel < n.wires.length :=
  Nat.lt_of_lt_of_le he.channel (he.entered.2.trans h.sane.2).wires

theorem tryAdmit_of_vacant {ι : Type} {pool : Pool ι} (h : pool.isFull = false) :
    pool.tryAdmit = (true, pool) := by
  unfold Pool.tryAdmit
  rw [h]
  rfl

theorem entered_eq (he : e.Admitted) :
    ∃ started : Machine, started.settings = e.engine.settings ∧
      started.decorators = e.engine.decorators ∧ started.wires = e.engine.wires ∧
      started.strand e.id = ⟨0, 0, [.received e.id e.channel e.request]⟩ ∧
        e.entered
          = started.advance (e.engine.newDispatch e.request e.channel e.outer e.nested) := by
  unfold Entry.entered dispatch
  dsimp only
  generalize hd : e.engine.newDispatch e.request e.channel e.outer e.nested = d
  have hpool : (e.engine.receive d).pool.tryAdmit = (true, e.engine.pool) :=
    tryAdmit_of_vacant he.vacant
  have hadmitted : (e.engine.receive d).tryAdmit
      = (true, { e.engine.receive d with pool := e.engine.pool }) := by
    unfold tryAdmit
    rw [hpool]
  have hstrand : (e.engine.receive d).strand e.id
      = (e.engine.strand e.id).note [.received d.id d.channel d.context.request] := by
    apply strand_log_of_eq
    rw [← hd]
    rfl
  rw [he.sane.fresh e.id (Nat.le_refl _)] at hstrand
  refine ⟨_, ?_, ?_, ?_, ?_, by rw [hadmitted]⟩
  . rfl
  . rfl
  . rfl
  . refine hstrand.trans ?_
    rw [← hd]
    rfl

theorem Alike.even_entered (h : e.Alike e') (he : e.Admitted) (he' : e'.Admitted) :
    Even e.place e'.place e.entered e'.entered := by
  obtain ⟨m, hset, hd, hwires, hs, heq⟩ := entered_eq he
  obtain ⟨m', hset', hd', hwires', hs', heq'⟩ := entered_eq he'
  have hlevel : Level e.place e'.place m m' := by
    refine ⟨⟨?_, ?_⟩, _, _, hs, hs', ?_⟩
    . rw [hset, hset', h.settings]
    . rw [isOpen_eq_of_wires_eq hwires, isOpen_eq_of_wires_eq hwires']
      exact h.isOpen
    . rw [h.request]
      rfl
  have hplaced : e'.engine.newDispatch e'.request e'.channel e'.outer e'.nested
      = (e.engine.newDispatch e.request e.channel e.outer e.nested).placed e'.place := by
    unfold newDispatch Dispatch.placed
    rw [h.pages, h.request]
    rfl
  rw [heq, heq', hplaced]
  exact hlevel.advance (d := e.engine.newDispatch e.request e.channel e.outer e.nested) h.like
    (by rw [hd, hd', h.decorators])

theorem Goes.decorators_eq (h : e.Goes k n) (he : e.Admitted) (hstep : n.Step n')
    (hd : n'.decorators = e.engine.decorators) : n.decorators = e.engine.decorators :=
  (he.entered.2.trans h.sane.2).decorators_eq (hstep.sane h.sane.1).2 hd

theorem Goes.even_of_entered (hn' : e'.Goes k n') (hk : k = 0)
    (h : Even e.place e'.place n e'.entered) : Even e.place e'.place n n' := by
  induction hn' with
  | enters hsane hg hs hc => exact h.of_strand_eq rfl hg.settings rfl hs (.inr rfl) hc
  | waits hgoes hstep hs hc ih =>
    exact (ih hk).of_strand_eq rfl (hstep.sane hgoes.sane.1).2.settings rfl hs (.inr rfl) hc
  | goes hgoes hstep hs hspares ih => cases hk

/-- As long as no decorator is added, two dispatches are even after as many steps of their own. -/
theorem Alike.even (h : e.Alike e') (he : e.Admitted) (he' : e'.Admitted) (hn : e.Goes k n)
    (hn' : e'.Goes k n') (hd : n.decorators = e.engine.decorators)
    (hd' : n'.decorators = e'.engine.decorators) : Even e.place e'.place n n' := by
  induction hn generalizing n' with
  | enters hsane hg hs hc =>
    exact hn'.even_of_entered rfl
      ((h.even_entered he he').of_strand_eq hg.settings rfl hs rfl hc (.inr rfl))
  | waits hgoes hstep hs hc ih =>
    have heven := ih hn' (hgoes.decorators_eq he hstep hd) hd'
    exact heven.of_strand_eq (hstep.sane hgoes.sane.1).2.settings rfl hs rfl hc (.inr rfl)
  | @goes k before after hgoes hstep hs hspares ih =>
    have hbefore := hgoes.decorators_eq he hstep hd
    -- the other one may have waited since its last step, so look for that step
    generalize hk : k + 1 = steps at hn'
    induction hn' with
    | enters => cases hk
    | waits hgoes' hstep' hs' hc' ih' =>
      have heven := ih' (hgoes'.decorators_eq he' hstep' hd') hk
      exact heven.of_strand_eq rfl (hstep'.sane hgoes'.sane.1).2.settings rfl hs' (.inr rfl) hc'
    | @goes steps before' after' hgoes' hstep' hs' hspares' ih' =>
      cases hk
      have hbefore' := hgoes'.decorators_eq he' hstep' hd'
      have heven := ih hgoes' hbefore hbefore'
      exact heven.owns h.like hgoes.sane.1 hgoes'.sane.1 (hgoes.channel_lt he)
        (hgoes'.channel_lt he') hspares hspares' (hd.trans hbefore.symm) (hd'.trans hbefore'.symm)
        (by rw [hbefore, hbefore', h.decorators])
        (hstep.owns hgoes.sane.1 (hgoes.id_lt he) hs)
        (hstep'.owns hgoes'.sane.1 (hgoes'.id_lt he') hs')

/-- Where a dispatch came past on its way; it does not go on from where it rests. -/
theorem Goes.exists_earlier (h : e.Goes k n) (he : e.Admitted) {j : Nat} (hj : j ≤ k) :
    ∃ earlier, e.Goes j earlier ∧ earlier.Grows n ∧
      (earlier.Rests e.id → j = k ∧ n.Rests e.id) := by
  induction h with
  | @enters n hn hg hs hc =>
    obtain rfl := Nat.le_zero.mp hj
    exact ⟨n, .enters hn hg hs hc, .refl, fun hr => ⟨rfl, hr⟩⟩
  | waits hgoes hstep hs hc ih =>
    obtain ⟨earlier, hearlier, hg, hrests⟩ := ih hj
    refine ⟨earlier, hearlier, hg.trans (hstep.sane hgoes.sane.1).2, ?_⟩
    rw [rests_iff_of_strand_eq hs]
    exact hrests
  | @goes k before after hgoes hstep hs hspares ih =>
    cases Nat.eq_or_lt_of_le hj with
    | inl heq =>
      subst heq
      exact ⟨after, .goes hgoes hstep hs hspares, .refl, fun hr => ⟨rfl, hr⟩⟩
    | inr hlt =>
      obtain ⟨earlier, hearlier, hg, hrests⟩ := ih (Nat.le_of_lt_succ hlt)
      refine ⟨earlier, hearlier, hg.trans (hstep.sane hgoes.sane.1).2, ?_⟩
      intro hr
      exact absurd (hrests hr).2 (hstep.owns hgoes.sane.1 (hgoes.id_lt he) hs).not_rests

theorem Alike.symm (h : e.Alike e') : e'.Alike e where
  settings := h.settings.symm
  pages := h.pages.symm
  decorators := h.decorators.symm
  request := h.request.symm
  like := Iff.symm h.like
  isOpen := h.isOpen.symm

/-- The one who took fewer steps tells the beginning of what the other one tells. -/
theorem Alike.tale_prefix (h : e.Alike e') (he : e.Admitted) (he' : e'.Admitted)
    (hn : e.Goes k n) (hn' : e'.Goes k' n') (hd : n.decorators = e.engine.decorators)
    (hd' : n'.decorators = e'.engine.decorators) (hle : k ≤ k') :
    n.tale e.id <+: n'.tale e'.id ∧
      (n.Rests e.id → k = k' ∧ n'.Rests e'.id ∧ n.tale e.id = n'.tale e'.id) := by
  obtain ⟨earlier, hearlier, hg, hrests⟩ := hn'.exists_earlier he' hle
  have hdecorators := (he'.entered.2.trans hearlier.sane.2).decorators_eq hg hd'
  have heven := h.even he he' hn hearlier hd hdecorators
  refine ⟨heven.tale_eq ▸ hg.tale_prefix e'.id, ?_⟩
  intro hr
  obtain ⟨hk, hr'⟩ := hrests (heven.rests_iff.mpr hr)
  subst hk
  exact ⟨rfl, hr', (h.even he he' hn hn' hd hd').tale_eq.symm⟩

end Entry
end PageDispatch
