import Mathlib.Algebra.BigOperators.Group.Finset.Piecewise
import PageDispatch.Proofs.Dispatch.Completion
import PageDispatch.Proofs.Dispatch.Priority
import PageDispatch.Proofs.Dispatch.Tally
import PageDispatch.Proofs.Machine.Metering

/-!
This module contains the verification that the counters of dispatches balance: every request that
was counted belongs to a dispatch that is on its way or was counted as ended, and the pages that
were counted are those that these dispatches tried.
-/

namespace PageDispatch

def Flight.dispatch? (f : Flight) : Option Dispatch :=
  match f.run.owner with
  | .caller => none
  | .dispatch d => some d

section Sums

variable {α β : Type}

/-- Weights that are put together by keys are the same in total. -/
theorem sum_filter_eq (key : α → Option Nat) (weight : α → Nat)
    (hnone : ∀ x, key x = none → weight x = 0) {k : Nat} (s : Multiset α)
    (h : ∀ x ∈ s, ∀ i, key x = some i → i < k) :
    ∑ i ∈ Finset.range k, ((s.filter fun x => key x = some i).map weight).sum
      =
    (s.map weight).sum := by
  induction s using Multiset.induction_on with
  | empty => simp
  | cons x rest ih =>
    have hrest := ih fun y hy => h y (Multiset.mem_cons_of_mem hy)
    have hfirst : ∑ i ∈ Finset.range k, (if key x = some i then weight x else 0) = weight x := by
      cases hkey : key x with
      | none => simp [hnone x hkey]
      | some j =>
        have hj := h x (Multiset.mem_cons_self x rest) j hkey
        simp [hj]
    rw [Multiset.map_cons, Multiset.sum_cons, ← hrest]
    conv_rhs => rw [← hfirst]
    rw [← Finset.sum_add_distrib]
    apply Finset.sum_congr rfl
    intro i _
    rw [Multiset.filter_cons]
    split <;> simp

/-- The weight of what comes of something, if anything does. -/
def weightOf (g : α → Option β) (weight : β → Nat) (x : α) : Nat := ((g x).map weight).getD 0

theorem sum_filterMap (g : α → Option β) (weight : β → Nat) (s : Multiset α) :
    ((s.filterMap g).map weight).sum = (s.map (weightOf g weight)).sum := by
  induction s using Multiset.induction_on with
  | empty => rfl
  | cons x rest ih =>
    rw [Multiset.map_cons, Multiset.sum_cons, ← ih]
    unfold weightOf
    cases hg : g x with
    | none => simp [Multiset.filterMap_cons_none _ _ hg]
    | some y => simp [Multiset.filterMap_cons_some _ _ _ hg]

theorem sum_filterMap_coe (g : α → Option β) (weight : β → Nat) (l : List α) :
    ((l.filterMap g).map weight).sum = (l.map (weightOf g weight)).sum :=
  sum_filterMap g weight (l : Multiset α)

theorem countP_eq_sum (p : α → Bool) (l : List α) :
    l.countP p = (l.map fun x => if p x then 1 else 0).sum := by
  induction l with
  | nil => rfl
  | cons x rest ih =>
    rw [List.countP_cons, ih, List.map_cons, List.sum_cons, Nat.add_comm]

end Sums

section Flights

theorem weightOf_dispatch? {f : Flight} {d : Dispatch} (h : f.run.owner = .dispatch d)
    (weight : Dispatch → Nat) : weightOf Flight.dispatch? weight f = weight d := by
  unfold weightOf Flight.dispatch?
  rw [h]
  rfl

theorem weightOf_of_caller {f : Flight} (h : f.run.owner.id? = none) (weight : Dispatch → Nat) :
    weightOf Flight.dispatch? weight f = 0 := by
  unfold weightOf Flight.dispatch?
  cases howner : f.run.owner with
  | caller => rfl
  | dispatch d =>
    rw [howner] at h
    cases h

theorem weightOf_summary? {e : Event} (h : e.dispatch? = none) (weight : DispatchSummary → Nat) :
    weightOf Event.summary? weight e = 0 := by
  cases e <;> first | rfl | cases h

theorem flight?_eq (alarm : Alarm) (i : Nat) :
    alarm.flight? i = alarm.parked?.filter fun f => f.run.owner.id? = some i := by
  cases hparked : alarm.parked? with
  | none => rw [Alarm.flight?_of_parked? hparked, Option.filter_none]
  | some f =>
    unfold Alarm.parked? at hparked
    split at hparked
    . cases hparked
      rw [Option.filter_some]
      simp only [decide_eq_true_eq]
      rfl
    . cases hparked

theorem Machine.flights_strand (m : Machine) (i : Nat) :
    (m.strand i).flights = m.inFlight.filter fun f => f.run.owner.id? = some i := by
  have hwaiting : m.pool.waiting.filterMap (Job.flight? i)
      = (m.pool.waiting.map Flight.queued).filter fun f => f.run.owner.id? = some i := by
    rw [← List.filterMap_eq_map, List.filter_filterMap]
    congr 1
    funext job
    rw [Function.comp_apply, Option.filter_some]
    simp only [decide_eq_true_eq]
    rfl
  have htimers : (m.timers.filterMap fun timer => timer.alarm.flight? i)
      = (m.timers.filterMap fun timer => timer.alarm.parked?).filter
          fun f => f.run.owner.id? = some i := by
    rw [List.filter_filterMap]
    simp only [flight?_eq]
  unfold inFlight strand
  rw [Multiset.filter_add, Multiset.filter_coe, Multiset.filter_coe, ← hwaiting, ← htimers]

end Flights

namespace Strand.Balances

variable {s : Strand} {pages : List Page}

theorem requests_eq_one (h : s.Balances pages) : s.total Event.requestCount = 1 := by
  cases h with
  | busy hflights howner hpages h => exact h.requests
  | ended hflights hrequests htried hsummaries hnotFound hshed => exact hrequests

/-- A dispatch is on its way or has ended, and only one of these. -/
theorem requests_eq (h : s.Balances pages) :
    s.total Event.requestCount
      =
    (s.summaries.map fun _ => 1).sum + (s.flights.map (weightOf Flight.dispatch? fun _ => 1)).sum
    := by
  cases h with
  | busy hflights howner hpages h =>
    rw [h.requests, h.summaries, hflights, Multiset.map_singleton, Multiset.sum_singleton,
      weightOf_dispatch? howner]
    rfl
  | ended hflights hrequests htried hsummaries hnotFound hshed =>
    rw [hrequests, hsummaries, hflights]
    rfl

theorem pages_eq (h : s.Balances pages) :
    s.total Event.pageCount
      =
    (s.summaries.map DispatchSummary.pagesTried).sum
      + (s.flights.map (weightOf Flight.dispatch? Dispatch.tried)).sum := by
  cases h with
  | busy hflights howner hpages h =>
    rw [h.pages, h.summaries, hflights, Multiset.map_singleton, Multiset.sum_singleton,
      weightOf_dispatch? howner]
    exact (Nat.zero_add _).symm
  | ended hflights hrequests htried hsummaries hnotFound hshed =>
    rw [htried, hsummaries, hflights]
    rfl

end Strand.Balances

namespace Machine

/-- The summaries of dispatches that were handed out, oldest first. -/
def summaries (m : Machine) : List DispatchSummary := m.journal.filterMap Event.summary?

/-- Whether every dispatch balances, if these are the flights that there are. -/
def Accounts (m : Machine) (flights : Multiset Flight) : Prop :=
  ∀ i, i < m.dispatches → ∃ (pages : List Page) (s : Strand), s.Balances pages ∧
    s.events = (m.strand i).events ∧ s.flights = flights.filter fun f => f.run.owner.id? = some i

variable {m : Machine} {flights : Multiset Flight}

theorem total_strands (hm : m.Fresh) (weight : Event → Nat)
    (hweight : ∀ e, e.dispatch? = none → weight e = 0) :
    ∑ i ∈ Finset.range m.dispatches, (m.strand i).total weight = (m.journal.map weight).sum := by
  have hsum := sum_filter_eq Event.dispatch? weight hweight (m.journal : Multiset Event)
    fun e he i hi => hm.lt_of_mem_journal (Multiset.mem_coe.mp he) hi
  rw [Multiset.map_coe, Multiset.sum_coe] at hsum
  rw [← hsum]
  rfl

section Accounts

theorem requestCount_of_none {e : Event} (h : e.dispatch? = none) : e.requestCount = 0 := by
  cases e <;> first | rfl | cases h

theorem pageCount_of_none {e : Event} (h : e.dispatch? = none) : e.pageCount = 0 := by
  cases e <;> first | rfl | cases h

theorem Accounts.requests_eq (h : m.Accounts flights) (hm : m.Fresh) :
    (m.journal.map Event.requestCount).sum = m.dispatches := by
  have hone : ∀ i ∈ Finset.range m.dispatches, (m.strand i).total Event.requestCount = 1 := by
    intro i hi
    obtain ⟨pages, s, hs, hsame, -⟩ := h i (Finset.mem_range.mp hi)
    unfold Strand.total
    rw [← hsame]
    exact hs.requests_eq_one
  rw [← total_strands hm Event.requestCount fun e he => requestCount_of_none he,
    Finset.sum_congr rfl hone, ← Finset.card_eq_sum_ones, Finset.card_range]

variable (hm : m.Fresh)
  (hflights : ∀ f ∈ flights, ∀ i, f.run.owner.id? = some i → i < m.dispatches)
  (h : m.Accounts flights)
include hm hflights h

/-- What every dispatch accounts for is accounted for in total. -/
theorem Accounts.sum_eq {weight : Event → Nat} {summed : DispatchSummary → Nat}
    {carried : Dispatch → Nat}
    (hweight : ∀ e, e.dispatch? = none → weight e = 0)
    (hbalances : ∀ (s : Strand) pages, s.Balances pages → s.total weight
      = (s.summaries.map summed).sum + (s.flights.map (weightOf Flight.dispatch? carried)).sum) :
    (m.journal.map weight).sum
      =
    (m.summaries.map summed).sum + ((flights.filterMap Flight.dispatch?).map carried).sum := by
  have hevents := total_strands hm (weightOf Event.summary? summed)
    fun e he => weightOf_summary? he summed
  have hcarried := sum_filter_eq (fun f : Flight => f.run.owner.id?)
    (weightOf Flight.dispatch? carried) (fun f hf => weightOf_of_caller hf carried) flights hflights
  unfold summaries
  rw [sum_filterMap, sum_filterMap_coe, ← hevents, ← hcarried, ← Finset.sum_add_distrib,
    ← total_strands hm weight hweight]
  apply Finset.sum_congr rfl
  intro i hi
  obtain ⟨pages, s, hs, hsame, hown⟩ := h i (Finset.mem_range.mp hi)
  have hstrand := hbalances s pages hs
  unfold Strand.total Strand.summaries at hstrand
  rw [hsame, hown, sum_filterMap_coe] at hstrand
  exact hstrand

end Accounts

end Machine

namespace DispatchMetrics

/-- How many of some dispatches ended in a certain way. -/
def endings (summaries : List DispatchSummary) (disposition : Disposition) : Nat :=
  summaries.countP fun s => s.disposition = disposition

section Readings

variable (x : DispatchMetrics) (es : List Event)

theorem requests_foldl :
    (es.foldl noting x).requests = x.requests + .ofNat (es.map Event.requestCount).sum := by
  apply foldl_noting_eq (f := DispatchMetrics.requests)
  intro x e
  cases e with
  | received dispatch channel request => rfl
  | finished dispatch nested summary =>
    unfold noting recordEnd
    dsimp only
    cases summary.disposition <;> exact (UInt64.add_zero _).symm
  | _ => exact (UInt64.add_zero _).symm

theorem pagesTried_foldl :
    (es.foldl noting x).pagesTried = x.pagesTried + .ofNat (es.map Event.pageCount).sum := by
  apply foldl_noting_eq (f := DispatchMetrics.pagesTried)
  intro x e
  cases e with
  | building dispatch page => rfl
  | finished dispatch nested summary =>
    unfold noting recordEnd
    dsimp only
    cases summary.disposition <;> exact (UInt64.add_zero _).symm
  | _ => exact (UInt64.add_zero _).symm

theorem ended_foldl (disposition : Disposition) :
    (es.foldl noting x).ended disposition
      =
    x.ended disposition
      + .ofNat (endings (es.filterMap Event.summary?) disposition) := by
  unfold endings
  rw [countP_eq_sum, sum_filterMap_coe]
  apply foldl_noting_eq (f := (ended · disposition))
  intro x e
  cases e with
  | finished dispatch nested summary =>
    unfold noting recordEnd weightOf Event.summary?
    dsimp only [Option.map_some, Option.getD_some]
    cases summary.disposition <;> cases disposition <;>
      first | rfl | exact (UInt64.add_zero _).symm
  | _ => cases disposition <;> exact (UInt64.add_zero _).symm

end Readings

/--
Whether counters agree with the summaries handed out and the dispatches on their way; they do not
overflow before that of the requests does.
-/
structure Balances (x : DispatchMetrics) (summaries : List DispatchSummary)
    (busy : Multiset Dispatch) (count : Nat) : Prop where
  arrived : summaries.length + Multiset.card busy = count
  requests : x.requests
    = x.answered + x.failed + x.notFound + x.abandoned + x.shed + .ofNat (Multiset.card busy)
  ended : ∀ disposition, x.ended disposition = .ofNat (endings summaries disposition)
  pagesTried : x.pagesTried
    = .ofNat ((summaries.map DispatchSummary.pagesTried).sum + (busy.map Dispatch.tried).sum)
  bounded : count < 2 ^ 64 → x.requests.toNat = count ∧ x.completed ≤ x.requests ∧
    x.completed.toNat
      = x.answered.toNat + x.failed.toNat + x.notFound.toNat + x.abandoned.toNat + x.shed.toNat

theorem length_eq_endings (summaries : List DispatchSummary) :
    summaries.length
      =
    endings summaries .answered + endings summaries .failed + endings summaries .notFound
      + endings summaries .abandoned + endings summaries .shed := by
  unfold endings
  induction summaries with
  | nil => rfl
  | cons s rest ih =>
    simp only [List.countP_cons, List.length_cons, ih]
    cases s.disposition <;> simp <;> omega

theorem balances_of_counts {x : DispatchMetrics} {summaries : List DispatchSummary}
    {busy : Multiset Dispatch} {count : Nat}
    (harrived : summaries.length + Multiset.card busy = count)
    (hrequests : x.requests = .ofNat count)
    (hended : ∀ disposition, x.ended disposition = .ofNat (endings summaries disposition))
    (hpages : x.pagesTried
      = .ofNat ((summaries.map DispatchSummary.pagesTried).sum + (busy.map Dispatch.tried).sum)) :
    x.Balances summaries busy count := by
  have hlength := length_eq_endings summaries
  have hanswered : x.answered = _ := hended .answered
  have hfailed : x.failed = _ := hended .failed
  have hnotFound : x.notFound = _ := hended .notFound
  have habandoned : x.abandoned = _ := hended .abandoned
  have hshed : x.shed = _ := hended .shed
  have hcompleted : x.completed = .ofNat summaries.length := by
    unfold completed
    rw [hanswered, hfailed, hnotFound, habandoned, hshed, hlength]
    simp only [UInt64.ofNat_add]
  constructor
  case arrived => exact harrived
  case ended => exact hended
  case pagesTried => exact hpages
  case requests =>
    have hrest : x.answered + x.failed + x.notFound + x.abandoned + x.shed
        = .ofNat summaries.length := hcompleted
    rw [hrest, hrequests, ← harrived, UInt64.ofNat_add]
  case bounded =>
    intro hlt
    have hexact : ∀ n, n ≤ count → (UInt64.ofNat n).toNat = n := by
      intro n hn
      rw [UInt64.toNat_ofNat']
      exact Nat.mod_eq_of_lt (Nat.lt_of_le_of_lt hn hlt)
    refine ⟨?_, ?_, ?_⟩
    . rw [hrequests]
      exact hexact count (Nat.le_refl count)
    . rw [UInt64.le_iff_toNat_le, hcompleted, hrequests, hexact _ (by omega), hexact _ (by omega)]
      omega
    . rw [hcompleted, hanswered, hfailed, hnotFound, habandoned, hshed]
      rw [hexact _ (by omega), hexact _ (by omega), hexact _ (by omega), hexact _ (by omega),
        hexact _ (by omega), hexact _ (by omega)]
      exact hlength

end DispatchMetrics
namespace Machine

/-- Whether the counters of a machine balance if these are the flights that there are. -/
def Balances (m : Machine) (flights : Multiset Flight) : Prop :=
  m.metrics.Balances m.summaries (flights.filterMap Flight.dispatch?) m.dispatches

variable {settings : Settings} {m n started : Machine} {flights : Multiset Flight} {job : Job}
  {i : Nat}

theorem balances_of_accounts (h : m.Accounts flights) (hmetered : m.Metered) (hm : m.Fresh)
    (hflights : ∀ f ∈ flights, ∀ i, f.run.owner.id? = some i → i < m.dispatches) :
    m.Balances flights := by
  have hrequests := h.requests_eq hm
  have hcards := h.sum_eq hm hflights (fun e he => requestCount_of_none he)
    fun s pages hs => hs.requests_eq
  have hpages := h.sum_eq hm hflights (fun e he => pageCount_of_none he)
    fun s pages hs => hs.pages_eq
  unfold Balances
  rw [hmetered]
  apply DispatchMetrics.balances_of_counts
  . rw [← hrequests, hcards]
    simp
  . rw [DispatchMetrics.requests_foldl, hrequests]
    exact UInt64.zero_add _
  . intro disposition
    rw [DispatchMetrics.ended_foldl]
    cases disposition <;> exact UInt64.zero_add _
  . rw [DispatchMetrics.pagesTried_foldl, hpages]
    exact UInt64.zero_add _

theorem Stirred.exists_balances (h : Stirred settings m) (hi : i < m.dispatches) :
    ∃ pages, (m.strand i).Balances pages := by
  induction h generalizing i with
  | new pages decorators => exact absurd hi (Nat.not_lt_zero i)
  | next hbefore hnext ih => exact hnext.exists_balances hbefore.sane (fun _ => ih) hi

theorem lt_of_mem_inFlight (hm : m.Sane) :
    ∀ f ∈ m.inFlight, ∀ i, f.run.owner.id? = some i → i < m.dispatches := by
  intro f hf i hi
  exact (hm.flights f (mem_inFlight_iff.mp hf)).id_lt hi

theorem Stirred.balances (h : Stirred settings m) : m.Balances m.inFlight := by
  refine balances_of_accounts ?_ h.metered h.sane.fresh (lt_of_mem_inFlight h.sane)
  intro i hi
  obtain ⟨pages, hb⟩ := h.exists_balances hi
  exact ⟨pages, m.strand i, hb, rfl, flights_strand m i⟩

section During

theorem balances_startJob? (h : Stirred settings m) (hstart : m.startJob? = some (job, started)) :
    started.Balances (started.inFlight + {.queued job}) := by
  have hb := h.balances
  rw [inFlight_startJob? hstart] at hb
  obtain ⟨rest, -, rfl⟩ := startJob?_eq_some hstart
  exact hb

/-- A job takes its dispatch out of the queue, and has it until it is done. -/
theorem accounts_turn (h : Stirred settings m) (hstart : m.startJob? = some (job, started)) :
    (started.turn job).1.Accounts ((started.turn job).1.inFlight + {.queued job}) := by
  have hs := h.sane.startJob? hstart
  have hfit := h.sane.fits_startJob? hstart
  have hold : ∀ i, i < started.dispatches → ∃ pages, (m.strand i).Balances pages := by
    intro i hi
    obtain ⟨rest, -, rfl⟩ := startJob?_eq_some hstart
    exact h.exists_balances hi
  intro i hi
  rw [Multiset.filter_add, ← flights_strand]
  cases Decidable.em (job.run.owner.id? = some i) with
  | inl hown =>
    obtain ⟨pages, hb⟩ := hold i (hfit.id_lt hown)
    rw [strand_startJob?_of_eq hstart hown] at hb
    obtain ⟨hidle, d, howner, -, hcounts⟩ := hb.of_fly
    obtain ⟨es, hstrand, hes⟩ := exists_strand_turn (hs.knows hfit) hown
    rw [hstrand]
    have hturned : (((started.strand i).note es).fly (.queued job)).Balances d.pages :=
      (hcounts.append rfl hes).fly hidle howner
    have hjob : (Flight.queued job).run.owner.id? = some i := hown
    refine ⟨d.pages, _, hturned, rfl, ?_⟩
    rw [Multiset.filter_singleton, if_pos hjob]
    rfl
  | inr hother =>
    have hjob : (Flight.queued job).run.owner.id? ≠ some i := hother
    rw [Multiset.filter_singleton, if_neg hjob, Multiset.empty_eq_zero, add_zero]
    have hturned : ∃ pages, ((started.turn job).1.strand i).Balances pages := by
      cases Nat.lt_or_ge i started.dispatches with
      | inl hlt =>
        have hsame : (started.turn job).1.strand i = m.strand i := by
          rw [(acts_turn_of_fits hfit).strand_eq, strand_startJob?_of_ne hstart hother]
          intro hwho
          cases hwho with
          | inl heq => exact hother heq
          | inr hle => exact Nat.not_lt_of_le hle hlt
        rw [hsame]
        exact hold i hlt
      | inr hnew => exact (rears_turn hs hfit i hnew hi).balances
    obtain ⟨pages, hb⟩ := hturned
    exact ⟨pages, _, hb, rfl, rfl⟩

theorem balances_turn (h : Stirred settings m) (hstart : m.startJob? = some (job, started)) :
    (started.turn job).1.Balances ((started.turn job).1.inFlight + {.queued job}) := by
  have hs := h.sane.startJob? hstart
  have hfit := h.sane.fits_startJob? hstart
  have hacts := acts_turn_of_fits hfit
  have hturned := hacts.sane hs
  refine balances_of_accounts (accounts_turn h hstart) ((h.metered.startJob? hstart).turn job)
    hturned.fresh ?_
  intro f hf i hi
  cases Multiset.mem_add.mp hf with
  | inl hheld => exact lt_of_mem_inFlight hturned f hheld i hi
  | inr hjob =>
    rw [Multiset.mem_singleton.mp hjob] at hi
    exact Nat.lt_of_lt_of_le (hfit.id_lt hi) hacts.grows.dispatches

end During

end Machine

/-- Whether a dispatch was started on the way to a machine. -/
inductive Entry.Precedes (settings : Settings) (e : Entry) : Machine → Prop
  | starts {m : Machine} (hm : Machine.Stirred settings m) (he : e.engine.Sane)
    (hid : e.id < m.dispatches) (hg : e.entered.Grows m)
    (hs : m.strand e.id = e.entered.strand e.id) : Precedes settings e m
  | stirs {m n : Machine} (h : Precedes settings e m) (hnext : m.Stirs n) : Precedes settings e n

section Precedes

open Machine

variable {settings : Settings} {m m' : Machine} {e : Entry} {i : Nat}

theorem Entry.Precedes.reaches (h : e.Precedes settings m) (hreach : m.Reaches m') :
    e.Precedes settings m' := by
  induction hreach with
  | refl => exact h
  | tail _ hlast ih => exact ih.stirs hlast.stirs

/-- A dispatch that was started goes by the pages that were registered then. -/
theorem Entry.Precedes.balances (h : e.Precedes settings m) :
    Stirred settings m ∧ e.id < m.dispatches ∧ (m.strand e.id).Balances e.engine.pages := by
  induction h with
  | starts hm he hid hg hs =>
    rw [hs]
    exact ⟨hm, hid, balances_dispatch he⟩
  | stirs _ hnext ih =>
    obtain ⟨hm, hid, hb⟩ := ih
    exact ⟨hm.next hnext, Nat.lt_of_lt_of_le hid (hnext.dispatches_le hm.sane),
      hnext.balances_of_lt hm.sane hid hb⟩

/-- Every dispatch was started at some time, by a unit or not. -/
theorem Machine.Stirred.exists_precedes (h : Stirred settings m) (hi : i < m.dispatches) :
    ∃ e : Entry, e.id = i ∧ e.Precedes settings m := by
  apply h.of_begets _ _ hi
  . intro n n' i hn hbegets
    cases hbegets with
    | @intro b channel outer request nested hb hg hid hc hs hg' =>
      have hlt : b.dispatches < n'.dispatches := by
        apply Nat.lt_of_lt_of_le _ hg'.dispatches
        rw [dispatches_dispatch request nested hc]
        apply Nat.lt_succ_self
      subst hid
      exact ⟨⟨b, request, channel, outer, nested⟩, rfl, .starts hn hb hlt hg' hs⟩
  . intro n n' i hnext hold
    obtain ⟨e, hid, he⟩ := hold
    exact ⟨e, hid, he.stirs hnext⟩

/-- Of a dispatch that found no page, all were tried; of one that was shed, none. -/
theorem Entry.Precedes.pagesTried_eq {nested : Bool} {summary : DispatchSummary}
    (h : e.Precedes settings m) (hmem : .finished e.id nested summary ∈ m.journal) :
    (summary.disposition = .notFound → summary.pagesTried = e.engine.pages.length) ∧
    (summary.disposition = .shed → summary.pagesTried = 0) := by
  have hmem : summary ∈ (m.strand e.id).summaries :=
    List.mem_filterMap.mpr ⟨_, mem_strand_of_mem_journal hmem rfl, rfl⟩
  cases h.balances.2.2 with
  | busy hflights howner hpages h =>
    rw [h.summaries] at hmem
    cases hmem
  | ended hflights hrequests htried hsummaries hnotFound hshed =>
    rw [hsummaries] at hmem
    cases List.mem_singleton.mp hmem
    exact ⟨hnotFound, hshed⟩

end Precedes

namespace Machine

/--
The counters of dispatches balance, between two jobs as well as within one: every request that was
counted has been counted as ended in one way, just as its summary says, or is on its way; and the
pages that were counted are those of the summaries and of the dispatches on their way.
-/
theorem Stirred.counters_balance {settings : Settings} {m : Machine} (h : Stirred settings m) :
    m.Balances m.inFlight ∧
    (∀ job started mid, m.startJob? = some (job, started) →
      mid = started ∨ mid = (started.turn job).1 →
        mid.Balances (mid.inFlight + {.queued job})) ∧
    (∀ i, i < m.dispatches → ∃ e : Entry, e.id = i ∧ e.Precedes settings m) ∧
    (∀ (e : Entry) nested summary, e.Precedes settings m →
      .finished e.id nested summary ∈ m.journal →
        (summary.disposition = .notFound → summary.pagesTried = e.engine.pages.length) ∧
        (summary.disposition = .shed → summary.pagesTried = 0)) := by
  refine ⟨h.balances, ?_, ?_, ?_⟩
  . intro job started mid hstart hmid
    cases hmid with
    | inl hstarted =>
      rw [hstarted]
      exact balances_startJob? h hstart
    | inr hturned =>
      rw [hturned]
      exact balances_turn h hstart
  . intro i hi
    exact h.exists_precedes hi
  . intro e nested summary he hmem
    exact he.pagesTried_eq hmem

def refused : Entry := ⟨single .plain [refusingPage], .new .zero .get "/", 0, 0, false⟩

/-- Once a request has been refused by the only page, another one is tried on a second page. -/
def counting : Machine :=
  (((refused.entered.settle 2).registerPage stumblingPage).dispatch (.new .zero .get "/") 0 0
    false).settle 1

theorem stirred_entered : Stirred .plain refused.entered :=
  (reachable_single .plain [refusingPage]).stirred.reaches (.single (.dispatch _ Nat.zero_lt_one))

theorem reaches_counting : refused.entered.Reaches counting :=
  (((reaches_settle _ 2).tail (.registerPage _)).tail (.dispatch _ Nat.zero_lt_one)).trans
    (reaches_settle _ 1)

theorem balance_of_counting :
    counting.metrics.requests = counting.metrics.notFound + 1 ∧
    counting.metrics.pagesTried = 1 + 2 ∧
    (∃ job started, counting.startJob? = some (job, started) ∧
      (started.turn job).1.Balances ((started.turn job).1.inFlight + {.queued job})) ∧
    ∃ summary, .finished 0 false summary ∈ counting.journal ∧
      summary.disposition = .notFound ∧ summary.pagesTried = refused.engine.pages.length := by
  have hprecedes : refused.Precedes .plain refused.entered :=
    .starts stirred_entered (reachable_single .plain [refusingPage]).sane.1 Nat.zero_lt_one .refl
      rfl
  obtain ⟨hbalances, hmid, -, htried⟩ :=
    Stirred.counters_balance (stirred_entered.reaches reaches_counting)
  refine ⟨?_, ?_, ?_, ?_⟩
  . have hended := hbalances.ended
    have hanswered : counting.metrics.answered = 0 := hended .answered
    have hfailed : counting.metrics.failed = 0 := hended .failed
    have habandoned : counting.metrics.abandoned = 0 := hended .abandoned
    have hshed : counting.metrics.shed = 0 := hended .shed
    have hbusy : Multiset.card (counting.inFlight.filterMap Flight.dispatch?) = 1 := rfl
    have hrequests := hbalances.requests
    rw [hanswered, hfailed, habandoned, hshed, hbusy] at hrequests
    simpa using hrequests
  . exact hbalances.pagesTried
  . exact ⟨_, _, rfl, hmid _ _ _ rfl (.inr rfl)⟩
  . have hmem : .finished 0 false _ ∈ counting.journal := List.mem_of_getElem? (i := 5) rfl
    exact ⟨_, hmem, rfl, (htried _ _ _ (hprecedes.reaches reaches_counting) hmem).1 rfl⟩

end Machine
end PageDispatch
