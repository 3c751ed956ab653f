import PageDispatch.Proofs.Dispatch.Completion
import PageDispatch.Proofs.Dispatch.Sequence

/-!
This module contains the isolation of dispatches: what becomes of one of them is the same whatever
others an engine works on in between, as long as they have other channels.
-/

namespace PageDispatch

namespace Machine

variable {m n : Machine} {i : Nat} {channel : ChannelId}

theorem Grows.isOpen (h : m.Grows n) (hlt : channel < m.wires.length)
    (hopen : n.isOpen channel = true) : m.isOpen channel = true := by
  cases hm : m.isOpen channel with
  | true => rfl
  | false =>
    rw [h.closed channel hlt hm] at hopen
    cases hopen

/-- A channel that is left as it is was not touched by the dispatches started on the way either. -/
theorem spares_of_isOpen_eq (hlt : channel < m.wires.length)
    (h : n.isOpen channel = m.isOpen channel) : m.Spares n channel := by
  intro b request id outer nested hb hid hn
  have hdispatch := (@acts_dispatch b (fun _ => True) outer id trivial hid request nested).grows
  have hltb := Nat.lt_of_lt_of_le hlt hb.wires
  have hltd := Nat.lt_of_lt_of_le hltb hdispatch.wires
  cases hopen : m.isOpen channel with
  | true =>
    have hd := hn.isOpen hltd (h.trans hopen)
    rw [hd, hdispatch.isOpen hltb hd]
  | false =>
    have hb' := hb.closed channel hlt hopen
    rw [hb', hdispatch.closed channel hltb hb']

theorem spares_of_dispatches_eq (h : n.dispatches = m.dispatches) : m.Spares n channel := by
  intro b request id outer nested hb hid hn
  have hle := hn.dispatches
  rw [dispatches_dispatch request nested hid, h] at hle
  exact absurd (Nat.lt_of_lt_of_le hle hb.dispatches) (Nat.lt_irrefl _)

theorem rests_of_nothing (hwaiting : n.pool.waiting = []) (htimers : n.timers = []) :
    n.Rests i := by
  unfold Rests strand
  rw [hwaiting, htimers]
  exact ⟨rfl, rfl⟩

end Machine

namespace Entry

open Machine

variable {e e' : Entry} {k k' : Nat} {m n : Machine}

theorem Goes.aside (h : e.Goes k m) (he : e.Admitted) (haside : m.Aside e.id e.channel n) :
    e.Goes k n := by
  have ⟨hs, hc⟩ := haside.leaves h.sane.1 (h.id_lt he) (h.channel_lt he)
  exact .waits h haside.step hs (.inr hc)

theorem Goes.own (h : e.Goes k m) (he : e.Admitted) (hstep : m.Step n)
    (hs : n.strand e.id ≠ m.strand e.id)
    (hc : n.isOpen e.channel = m.isOpen e.channel ∨ n.dispatches = m.dispatches) :
    e.Goes (k + 1) n := by
  apply Goes.goes h hstep hs
  cases hc with
  | inl hopen => exact spares_of_isOpen_eq (h.channel_lt he) hopen
  | inr hdispatches => exact spares_of_dispatches_eq hdispatches

/-- As long as its channel is open, a dispatch goes on whatever an engine does, in any order. -/
theorem Goes.exists_of_reaches (h : e.Goes k m) (he : e.Admitted) (hreach : m.Reaches n)
    (hopen : n.isOpen e.channel = true) : ∃ k', k ≤ k' ∧ e.Goes k' n := by
  induction hreach with
  | refl => exact ⟨k, Nat.le_refl _, h⟩
  | @tail mid last hmid hlast ih =>
    have ⟨hsane, hgrows⟩ := Reaches.sane hmid h.sane.1
    have hlt := Nat.lt_of_lt_of_le (h.channel_lt he) hgrows.wires
    -- a closed channel is never opened again, so it was open all the time
    have hopen' := (hlast.sane hsane).2.isOpen hlt hopen
    have hsame : last.isOpen e.channel = mid.isOpen e.channel := hopen.trans hopen'.symm
    obtain ⟨k', hle, hgoes⟩ := ih hopen'
    cases Classical.em (last.strand e.id = mid.strand e.id) with
    | inl hs => exact ⟨k', hle, .waits hgoes hlast hs (.inr hsame)⟩
    | inr hs => exact ⟨k' + 1, Nat.le_succ_of_le hle, hgoes.own he hlast hs (.inl hsame)⟩

theorem Goes.account_eq (h : e.Goes k n) (he : e.Admitted) : (n.strand e.id).account = 1 := by
  induction h with
  | enters hn hg hs hc =>
    have hbegets : e.engine.Begets e.entered e.id :=
      .intro he.sane .refl rfl he.channel rfl .refl
    rw [hs, hbegets.account_eq]
  | waits h hstep hs hc ih => rw [hs, ih]
  | goes h hstep hs hspares ih => rw [(hstep.affects h.sane.1 (h.id_lt he)).account_eq, ih]

theorem Goes.finishes_of_rests (h : e.Goes k n) (he : e.Admitted) (hrests : n.Rests e.id) :
    n.finishes e.id = 1 := by
  have haccount := h.account_eq he
  rw [Strand.account, hrests.1, Multiset.card_zero, Nat.zero_add, countP_events_strand] at haccount
  exact haccount

/--
A dispatch that was admitted tells the same whether it has an engine for itself or not: what it
evaluates and reports, its response and its summary, the latency aside, do not depend on what
others do on other channels and in which order, and neither do the number of steps that it takes
and that it comes to its end. It evaluates no unit before the outcomes of all units before it were
applied, and builds no page before the last one rejected the request.
-/
theorem Alike.isolated (h : e.Alike e') (he : e.Admitted) (he' : e'.Admitted) :
    e.Goes 0 e.entered ∧
    (∀ k m n, e.Goes k m → m.Aside e.id e.channel n → e.Goes k n) ∧
    (∀ k m n, e.Goes k m → m.Step n → n.strand e.id ≠ m.strand e.id →
      n.isOpen e.channel = m.isOpen e.channel ∨ n.dispatches = m.dispatches → e.Goes (k + 1) n) ∧
    (∀ k m n, e.Goes k m → m.Reaches n → n.isOpen e.channel = true → ∃ k', k ≤ k' ∧ e.Goes k' n) ∧
    (∀ k n, e.Goes k n →
      (n.pool.waiting = [] → n.timers = [] → n.Rests e.id) ∧
      (n.Rests e.id → n.finishes e.id = 1)) ∧
    (∀ k k' n n', e.Goes k n → e'.Goes k' n' → n.decorators = e.engine.decorators →
      n'.decorators = e'.engine.decorators →
        (k ≤ k' → n.tale e.id <+: n'.tale e'.id) ∧
        (n'.Rests e'.id → k ≤ k' ∧ (n.Rests e.id ↔ k = k')) ∧
        (n.Rests e.id → n'.Rests e'.id → n.tale e.id = n'.tale e'.id)) ∧
    (∀ settings m n i position unit view es, Reachable settings m → m.Step n →
      n.journal = m.journal ++ es → .evaluating (some i) position unit view ∈ es →
        ∃ run ps, (m.strand i).flights = {.queued (.step run)} ∧ Run.Trail settings ps run ∧
          ps.length = position) ∧
    (∀ settings m i, Reachable settings m →
      ∃ rejected onTrial, InTurn i rejected onTrial (m.trials i)) := by
  refine ⟨.enters he.entered.1 .refl rfl (.inr rfl), ?_, ?_, ?_, ?_, ?_, ?_, ?_⟩
  . exact fun k m n hm haside => hm.aside he haside
  . exact fun k m n hm hstep hs hc => hm.own he hstep hs hc
  . exact fun k m n hm hreach hopen => hm.exists_of_reaches he hreach hopen
  . intro k n hn
    exact ⟨rests_of_nothing, hn.finishes_of_rests he⟩
  . intro k k' n n' hn hn' hd hd'
    have hforth := h.tale_prefix he he' hn hn' hd hd'
    have hback := h.symm.tale_prefix he' he hn' hn hd' hd
    refine ⟨fun hle => (hforth hle).1, ?_, ?_⟩
    . intro hrests
      have hle : k ≤ k' := by
        cases Nat.le_total k k' with
        | inl hle => exact hle
        | inr hle => exact Nat.le_of_eq ((hback hle).2 hrests).1.symm
      refine ⟨hle, fun hr => ((hforth hle).2 hr).1, ?_⟩
      intro hk
      exact ((hback (Nat.le_of_eq hk.symm)).2 hrests).2.1
    . intro hr hr'
      cases Nat.le_total k k' with
      | inl hle => exact ((hforth hle).2 hr).2.2
      | inr hle => exact ((hback hle).2 hr').2.2.symm
  . intro settings m n i position unit view es hm hstep hes he
    exact hm.evaluates_in_turn hstep hes he rfl rfl
  . intro settings m i hm
    exact hm.exists_inTurn i

/-- A unit that waits, and then one that answers. -/
def patientPage : Page where
  name := "Patient"
  build _ := .pure (.ok ⟨"Patient", [
    .unit ⟨.ok "Wait",
      fun _ => ⟨[], .empty, [], .deferred ⟨some 5, false, .ok ⟨.consumed [] false, none⟩⟩⟩⟩,
    .unit (.respond .ok (some (.text "done")))]⟩)

def alone : Entry := ⟨single .plain [patientPage], .new .zero .get "/", 0, 0, false⟩

def amongOthers : Entry :=
  { alone with engine := ((single .plain [patientPage]).connect ⟨.new, none⟩).2 }

/-- Both dispatches wait at the same time, and the other one was started last. -/
def accompanied : Machine :=
  (amongOthers.entered.dispatch (.new .zero .get "/other") 1 1 false).settle 12

theorem admitted_alone : alone.Admitted where
  sane := (reachable_single .plain [patientPage]).sane.1
  channel := Nat.zero_lt_one
  vacant := rfl

theorem admitted_amongOthers : amongOthers.Admitted where
  sane := ((reachable_single .plain [patientPage]).reaches (.single (.connect _ rfl))).sane.1
  channel := Nat.zero_lt_two
  vacant := rfl

theorem alike_alone : amongOthers.Alike alone :=
  ⟨rfl, rfl, rfl, rfl, Iff.rfl, rfl⟩

theorem tale_of_accompanied :
    accompanied.Rests 0 ∧ accompanied.finishes 0 = 1 ∧ (accompanied.tale 0).length = 6 ∧
      accompanied.tale 0 = (alone.entered.settle 6).tale 0 := by
  have hisolated := Alike.isolated alike_alone admitted_amongOthers admitted_alone
  have hback := Alike.isolated alike_alone.symm admitted_alone admitted_amongOthers
  obtain ⟨hentered, -, -, hgo, hends, hsame, -⟩ := hisolated
  obtain ⟨hentered', -, -, hgo', hends', -⟩ := hback
  have hreach : amongOthers.entered.Reaches accompanied :=
    .head (.dispatch _ Nat.one_lt_two) (reaches_settle _ 12)
  obtain ⟨k, -, hgoes⟩ := hgo 0 _ accompanied hentered hreach rfl
  obtain ⟨k', -, hgoes'⟩ := hgo' 0 _ _ hentered' (reaches_settle _ 6) rfl
  have hrests := (hends k _ hgoes).1 rfl rfl
  have hrests' := (hends' k' _ hgoes').1 rfl rfl
  refine ⟨hrests, (hends k _ hgoes).2 hrests, rfl, ?_⟩
  exact (hsame k k' _ _ hgoes hgoes' rfl rfl).2.2 hrests hrests'

end Entry
end PageDispatch
