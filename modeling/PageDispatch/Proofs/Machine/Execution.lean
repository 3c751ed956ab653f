import Mathlib.Logic.Relation
import PageDispatch.Proofs.Machine.Sane

/-!
This module contains the executions of a machine. Jobs are taken in any order and timers go off at
any time, in between everything that can be asked of a machine from outside.
-/

namespace PageDispatch

def Settings.plain : Settings where
  registry := .empty
  codec := .json false
  hook := .silent
  fallback := .default (.ofSeconds 1)
  exposeDetails := false
  pool := .default

namespace Machine

inductive Step (m : Machine) : Machine → Prop
  | work {m' : Machine} (h : m.runJob? = some m') : Step m m'
  | reorder {waiting : List Job} (h : waiting.Perm m.pool.waiting) :
    Step m { m with pool := { m.pool with waiting } }
  | ring {before after : List Timer} {timer : Timer} (now : Nat)
    (h : m.timers = before ++ timer :: after) :
    Step m ({ m with timers := before ++ after, clock := now }.ring timer.alarm)
  | dispatch {channel : ChannelId} (request : Request) (h : channel < m.wires.length) :
    Step m (m.dispatch request channel channel false)
  | runChain {channel : ChannelId} (chain : HandlerChain) (context : Context)
    (h : channel < m.wires.length) : Step m (m.runChain chain context channel)
  | runFailedPage {channel : ChannelId} (page : String) (context : Context) (e : CauseChain)
    (h : channel < m.wires.length) : Step m (m.runFailedPage page context channel e)
  | connect (wire : Wire) (h : wire.channel.isOpen = true) : Step m (m.connect wire).2
  | close (id : ChannelId) : Step m (m.close id)
  | registerPage (page : Page) : Step m (m.registerPage page)
  | addDecorator (decorator : Decorator) : Step m (m.addDecorator decorator)

abbrev Reaches : Machine → Machine → Prop := Relation.ReflTransGen Step

/-- What an engine that starts with some pages and decorators can come to. -/
def Reachable (settings : Settings) (m : Machine) : Prop :=
  ∃ pages decorators, (new settings pages decorators).Reaches m

variable {m m' : Machine} {f : Flight}

theorem exists_append_of_first? {timers : List Timer} {timer : Timer} {others : List Timer}
    (h : Timer.first? timers = some (timer, others)) :
    ∃ before after, timers = before ++ timer :: after ∧ others = before ++ after := by
  induction timers generalizing timer others with
  | nil => cases h
  | cons head rest ih =>
    unfold Timer.first? at h
    split at h
    . cases h
      exact ⟨[], rest, rfl, rfl⟩
    . next other left heq =>
      split at h
      . cases h
        exact ⟨[], rest, rfl, rfl⟩
      . cases h
        obtain ⟨before, after, hrest, hleft⟩ := ih heq
        exact ⟨head :: before, after, by rw [hrest]; rfl, by rw [hleft]; rfl⟩

theorem step_of_wait? (h : m.wait? = some m') : m.Step m' := by
  unfold wait? at h
  obtain ⟨⟨timer, timers⟩, hfirst, heq⟩ := Option.map_eq_some_iff.mp h
  obtain ⟨before, after, htimers, hothers⟩ := exists_append_of_first? hfirst
  dsimp only at heq
  rw [hothers] at heq
  rw [← heq]
  exact .ring _ htimers

/-- The order in which a machine does things by itself is one of those considered here. -/
theorem step_of_next? (h : m.next? = some m') : m.Step m' := by
  unfold next? at h
  cases hjob : m.runJob? with
  | some next =>
    rw [hjob] at h
    cases h
    exact .work hjob
  | none =>
    rw [hjob] at h
    exact step_of_wait? h

theorem reaches_settle (m : Machine) (fuel : Nat) : m.Reaches (m.settle fuel) := by
  induction fuel generalizing m with
  | zero => exact .refl
  | succ fuel ih =>
    unfold settle
    split
    . exact .refl
    . next next h => exact .head (step_of_next? h) (ih next)

theorem exists_work_of_runJob? (h : m.runJob? = some m') :
    ∃ job started, m.startJob? = some (job, started) ∧
      m' = (started.work job).1.endJob (started.work job).2 := by
  unfold runJob? at h
  obtain ⟨⟨job, started⟩, hstart, heq⟩ := Option.map_eq_some_iff.mp h
  exact ⟨job, started, hstart, heq.symm⟩

theorem startJob?_eq_some {job : Job} {started : Machine} (h : m.startJob? = some (job, started)) :
    ∃ rest, m.pool.waiting = job :: rest ∧
      started = { m with pool := { m.pool with waiting := rest, running := some job } } := by
  unfold startJob? at h
  obtain ⟨⟨first, pool⟩, hstart, heq⟩ := Option.map_eq_some_iff.mp h
  cases heq
  unfold Pool.start? at hstart
  split at hstart
  . next first rest _ hwaiting =>
    cases hstart
    exact ⟨rest, hwaiting, rfl⟩
  . cases hstart

theorem sameWork_endJob (panicked : Bool) : m.SameWork (m.endJob panicked) := by
  refine ⟨rfl, List.prefix_refl _, id, ?_, rfl, rfl, rfl, rfl⟩
  unfold endJob Pool.finish
  dsimp only
  split <;> rfl

section Start

variable {job : Job} {started : Machine} {i : Nat}

theorem holds_of_startJob? (h : m.startJob? = some (job, started)) : m.Holds (.queued job) := by
  obtain ⟨rest, hwaiting, -⟩ := startJob?_eq_some h
  simp only [Holds, hwaiting, List.mem_cons_self]

theorem holds_of_holds_started (h : m.startJob? = some (job, started)) (hf : started.Holds f) :
    m.Holds f := by
  obtain ⟨rest, hwaiting, rfl⟩ := startJob?_eq_some h
  cases f with
  | queued other =>
    simp only [Holds, hwaiting]
    exact List.mem_cons_of_mem _ hf
  | parked s closes outer r => exact hf

theorem grows_startJob? (h : m.startJob? = some (job, started)) : m.Grows started := by
  obtain ⟨rest, -, rfl⟩ := startJob?_eq_some h
  exact { Grows.refl (m := m) with }

theorem Sane.fits_startJob? (h : m.Sane) (hstart : m.startJob? = some (job, started)) :
    started.Fits job.run :=
  (h.flights _ (holds_of_startJob? hstart)).of_grows (grows_startJob? hstart)

theorem strand_startJob?_of_eq (h : m.startJob? = some (job, started))
    (hi : job.run.owner.id? = some i) : m.strand i = (started.strand i).fly (.queued job) := by
  obtain ⟨rest, hwaiting, rfl⟩ := startJob?_eq_some h
  have hjob : job.flight? i = some (.queued job) := if_pos hi
  simp only [strand, hwaiting, Strand.fly, List.filterMap_cons_some hjob, ← Multiset.cons_coe,
    ← Multiset.singleton_add, add_assoc, add_comm]

theorem strand_startJob?_of_ne (h : m.startJob? = some (job, started))
    (hi : job.run.owner.id? ≠ some i) : started.strand i = m.strand i := by
  obtain ⟨rest, hwaiting, rfl⟩ := startJob?_eq_some h
  have hjob : job.flight? i = none := if_neg hi
  simp only [strand, hwaiting, List.filterMap_cons_none hjob]

theorem Sane.startJob? (h : m.Sane) (hstart : m.startJob? = some (job, started)) :
    started.Sane := by
  obtain ⟨rest, hwaiting, rfl⟩ := startJob?_eq_some hstart
  refine h.of_subset ?_ (fun _ hmem => hmem) rfl rfl rfl rfl
  intro other hmem
  rw [hwaiting]
  exact List.mem_cons_of_mem _ hmem

end Start

section Ring

variable {before after : List Timer} {timer : Timer} {now : Nat}

theorem Sane.takeTimer (h : m.Sane) (htimers : m.timers = before ++ timer :: after) :
    ({ m with timers := before ++ after, clock := now }).Sane := by
  refine h.of_subset (fun _ hmem => hmem) ?_ rfl rfl rfl rfl
  intro other hmem
  rw [htimers]
  cases List.mem_append.mp hmem with
  | inl hbefore => exact List.mem_append_left _ hbefore
  | inr hafter => exact List.mem_append_right _ (List.mem_cons_of_mem _ hafter)

theorem holds_of_holds_takeTimer (htimers : m.timers = before ++ timer :: after)
    (hf : ({ m with timers := before ++ after, clock := now }).Holds f) : m.Holds f := by
  cases f with
  | queued job => exact hf
  | parked s closes outer r =>
    obtain ⟨due, hmem⟩ := hf
    refine ⟨due, ?_⟩
    rw [htimers]
    cases List.mem_append.mp hmem with
    | inl hbefore => exact List.mem_append_left _ hbefore
    | inr hafter => exact List.mem_append_right _ (List.mem_cons_of_mem _ hafter)

theorem lt_of_deliver_mem {i : Nat} {channel outer : ChannelId} {r : Response} (h : m.Sane)
    (hmem : timer ∈ m.timers) (halarm : timer.alarm = .deliver i channel outer r) :
    i < m.dispatches := by
  apply Nat.lt_of_not_le
  intro hle
  have hempty := (strand_eq_empty_iff.mp (h.fresh i hle)).2.2.1 timer hmem
  rw [halarm, Alarm.delivery?, if_pos rfl] at hempty
  cases hempty

theorem ring_cases (m : Machine) (alarm : Alarm) :
    (∃ s closes outer r closed, alarm = .resolve (.registered s) closes outer r ∧
      Acts (fun _ => False) m closed ∧ m.ring alarm = closed.submit (.resume s r)) ∨
    (∃ i channel outer r, alarm = .deliver i channel outer r ∧
      m.ring alarm = m.sendNow i channel outer r) ∨
    ((∀ i, alarm.flight? i = none ∧ alarm.delivery? i = none) ∧
      Acts (fun _ => False) m (m.ring alarm)) := by
  cases alarm with
  | deliver i channel outer r => exact .inr (.inl ⟨i, channel, outer, r, rfl, rfl⟩)
  | resolve slot closes outer r =>
    have hclose : Acts (fun _ => False) m (if closes then m.close outer else m) := by
      split
      . exact acts_close outer
      . exact .refl
    cases slot with
    | registered s => exact .inl ⟨s, closes, outer, r, _, rfl, hclose, rfl⟩
    | waiting => exact .inr (.inr ⟨fun _ => ⟨rfl, rfl⟩, hclose⟩)
    | resolved first => exact .inr (.inr ⟨fun _ => ⟨rfl, rfl⟩, hclose⟩)
    | done => exact .inr (.inr ⟨fun _ => ⟨rfl, rfl⟩, hclose⟩)

theorem Sane.ring (h : m.Sane) (htimers : m.timers = before ++ timer :: after) :
    (({ m with timers := before ++ after, clock := now }).ring timer.alarm).Sane ∧
    m.Grows (({ m with timers := before ++ after, clock := now }).ring timer.alarm) := by
  have hwaited := @Sane.takeTimer m before after timer now h htimers
  have hmem : timer ∈ m.timers := by
    rw [htimers]
    exact List.mem_append_right _ List.mem_cons_self
  have hg : m.Grows { m with timers := before ++ after, clock := now } :=
    { Grows.refl (m := m) with }
  generalize { m with timers := before ++ after, clock := now } = waited at hwaited hg
  obtain hresume | hdeliver | hother := ring_cases waited timer.alarm
  . obtain ⟨s, closes, outer, r, closed, halarm, hclosed, heq⟩ := hresume
    have hholds : m.Holds (.parked s closes outer r) := ⟨timer.due, by rw [← halarm]; exact hmem⟩
    have hfit := ((h.flights _ hholds).of_grows hg).of_grows hclosed.grows
    rw [heq]
    exact ⟨(hclosed.sane hwaited).submit hfit, (hg.trans hclosed.grows).trans (grows_submit _)⟩
  . obtain ⟨i, channel, outer, r, halarm, heq⟩ := hdeliver
    have hlt := lt_of_deliver_mem h hmem halarm
    have hsend := @acts_sendNow waited (fun _ => True) outer i
      (fun _ hi => ⟨trivial, (Option.some.inj hi) ▸ Nat.lt_of_lt_of_le hlt hg.dispatches⟩) channel r
    rw [heq]
    exact ⟨hsend.sane hwaited, hg.trans hsend.grows⟩
  . exact ⟨hother.2.sane hwaited, hg.trans hother.2.grows⟩

theorem holds_of_sendNow {i : Nat} {channel outer : ChannelId} {r : Response}
    (hf : (m.sendNow i channel outer r).Holds f) : m.Holds f := by
  cases hopen : m.isOpen channel with
  | false =>
    rw [sendNow_of_closed hopen] at hf
    exact hf
  | true => exact (acts_sendNow_of_open hopen).holds_of_nobody hf

theorem holds_of_ring (htimers : m.timers = before ++ timer :: after)
    (hf : (({ m with timers := before ++ after, clock := now }).ring timer.alarm).Holds f) :
    m.Holds f ∨
      ∃ s closes outer r, m.Holds (.parked s closes outer r) ∧ f = .queued (.resume s r) := by
  have hmem : timer ∈ m.timers := by
    rw [htimers]
    exact List.mem_append_right _ List.mem_cons_self
  have hold : ∀ {g : Flight}, ({ m with timers := before ++ after, clock := now }).Holds g →
      m.Holds g := fun hg => holds_of_holds_takeTimer htimers hg
  generalize { m with timers := before ++ after, clock := now } = waited at hold hf
  obtain hresume | hdelayed | hrest := ring_cases waited timer.alarm
  . obtain ⟨s, closes, outer, r, closed, halarm, hclosed, heq⟩ := hresume
    rw [heq] at hf
    cases holds_of_submit hf with
    | inl hf => exact .inl (hold (hclosed.holds_of_nobody hf))
    | inr hnew =>
      exact .inr ⟨s, closes, outer, r, ⟨timer.due, by rw [← halarm]; exact hmem⟩, hnew⟩
  . obtain ⟨i, channel, outer, r, -, heq⟩ := hdelayed
    rw [heq] at hf
    exact .inl (hold (holds_of_sendNow hf))
  . exact .inl (hold (hrest.2.holds_of_nobody hf))

end Ring

theorem Sane.of_sameWork (h : m.Sane) (hs : m.SameWork m') : m'.Sane :=
  (@Act.tune (fun _ => False) m m' hs).sane h

theorem Step.sane (h : m.Step m') (hm : m.Sane) : m'.Sane ∧ m.Grows m' := by
  cases h with
  | work h =>
    obtain ⟨job, started, hstart, rfl⟩ := exists_work_of_runJob? h
    have hs := hm.startJob? hstart
    have hg := grows_startJob? hstart
    have hfit := hm.fits_startJob? hstart
    have hend := @sameWork_endJob (started.work job).1 (started.work job).2
    exact ⟨(hs.work hfit).of_sameWork hend, (hg.trans (grows_work hfit)).trans hend.grows⟩
  | reorder hperm =>
    refine ⟨?_, { Grows.refl (m := m) with }⟩
    exact hm.of_subset (fun job hmem => hperm.mem_iff.mp hmem) (fun _ hmem => hmem) rfl rfl rfl rfl
  | ring now htimers => exact hm.ring htimers
  | @dispatch channel request hc =>
    have hacts := @acts_dispatch m (fun _ => True) channel channel trivial hc request false
    exact ⟨hacts.sane hm, hacts.grows⟩
  | runChain chain context hc =>
    refine ⟨hm.submit ?_, grows_submit _⟩
    exact ⟨hc, nofun, nofun⟩
  | @runFailedPage channel page context e hc =>
    have hacts := @acts_runFailedPage m (fun _ => False) channel page context e
    exact ⟨hacts.sane hm, hacts.grows⟩
  | connect wire hw =>
    have hact : Act (fun _ => False) m (m.connect wire).2 := .connect wire hw
    exact ⟨hact.sane hm, hact.grows⟩
  | close id =>
    have hact : Act (fun _ => False) m (m.close id) := .close id
    exact ⟨hact.sane hm, hact.grows⟩
  | registerPage page =>
    have hsame : m.SameWork (m.registerPage page) :=
      ⟨rfl, List.prefix_refl _, id, rfl, rfl, rfl, rfl, rfl⟩
    exact ⟨hm.of_sameWork hsame, hsame.grows⟩
  | addDecorator decorator =>
    have hsame : m.SameWork (m.addDecorator decorator) :=
      ⟨rfl, List.prefix_append _ _, id, rfl, rfl, rfl, rfl, rfl⟩
    exact ⟨hm.of_sameWork hsame, hsame.grows⟩

theorem Reaches.sane (h : m.Reaches m') (hm : m.Sane) : m'.Sane ∧ m.Grows m' := by
  induction h with
  | refl => exact ⟨hm, .refl⟩
  | tail _ hlast ih =>
    have ⟨hsane, hgrows⟩ := hlast.sane ih.1
    exact ⟨hsane, ih.2.trans hgrows⟩

theorem Reachable.sane {settings : Settings} (h : Reachable settings m) :
    m.Sane ∧ m.settings = settings := by
  obtain ⟨pages, decorators, hreach⟩ := h
  have ⟨hsane, hgrows⟩ := hreach.sane (sane_new settings pages decorators)
  exact ⟨hsane, hgrows.settings⟩

theorem Reachable.reaches {settings : Settings} (h : Reachable settings m) (hr : m.Reaches m') :
    Reachable settings m' := by
  obtain ⟨pages, decorators, hreach⟩ := h
  exact ⟨pages, decorators, hreach.trans hr⟩

def single (settings : Settings) (pages : List Page) : Machine :=
  ((new settings pages []).connect ⟨.new, none⟩).2

theorem reachable_single (settings : Settings) (pages : List Page) :
    Reachable settings (single settings pages) :=
  ⟨pages, [], .single (.connect _ rfl)⟩

def running (settings : Settings) (elements : List ChainElement) (steps : Nat) : Machine :=
  ((single settings []).runChain ⟨"chain", elements⟩ (.forRequest (.new .zero .get "/")) 0).settle
    steps

theorem reachable_running (settings : Settings) (elements : List ChainElement) (steps : Nat) :
    Reachable settings (running settings elements steps) :=
  (reachable_single settings []).reaches
    ((Relation.ReflTransGen.single (.runChain _ _ Nat.zero_lt_one)).trans (reaches_settle _ steps))

end Machine
end PageDispatch
