import Mathlib.Data.Multiset.Range
import Mathlib.Data.Multiset.UnionInter
import PageDispatch.Proofs.Machine.Reopening

/-!
This module contains ledgers of runs: every run gets a number when it starts, keeps it from flight
to flight, and hands it in when it is completed.
-/

namespace PageDispatch

structure Ledger where
  /-- The runs that were neither completed nor lost, with what they wait for. -/
  live : Multiset (Nat × Flight)
  /-- How many numbers were given so far. -/
  issued : Nat
  /-- The numbers of the runs that were completed, first one first. -/
  completed : List Nat

namespace Ledger

def blank : Ledger := ⟨0, 0, []⟩

/-- Gives the next numbers to new runs. -/
def issue (l : Ledger) (fresh : List Flight) : Ledger :=
  { l with
    live := l.live + ↑((List.range' l.issued fresh.length).zip fresh)
    issued := l.issued + fresh.length }

/-- How a ledger is kept from step to step. Every rule names all flights that the step leaves. -/
inductive Follows (m : Machine) (l : Ledger) : Machine → Ledger → Prop
  | goes {job : Job} {started : Machine} {f : Flight} {k : Nat} {rest : Multiset (Nat × Flight)}
    {fresh : List Flight} (hstart : m.startJob? = some (job, started))
    (hnext : (started.turn job).2.flight? = some f) (hlive : l.live = rest + {(k, .queued job)})
    (hfresh : ∀ g ∈ fresh, g.IsFirst)
    (hflights : (started.work job).1.inFlight = rest.map Prod.snd + {f} + ↑fresh) :
    Follows m l ((started.work job).1.endJob (started.work job).2)
      ({ l with live := rest + {(k, f)} }.issue fresh)
  | completes {job : Job} {started last : Machine} {result : ChainResult} {k : Nat}
    {rest : Multiset (Nat × Flight)} {fresh : List Flight}
    (hstart : m.startJob? = some (job, started)) (hnext : (started.turn job).2.flight? = none)
    (hdone : (started.work job).1 = last.complete job.run.owner result)
    (hlive : l.live = rest + {(k, .queued job)})
    (hfresh : ∀ g ∈ fresh, g.IsFirst)
    (hflights : (started.work job).1.inFlight = rest.map Prod.snd + ↑fresh) :
    Follows m l ((started.work job).1.endJob (started.work job).2)
      ({ l with live := rest, completed := l.completed ++ [k] }.issue fresh)
  | wakes {before after : List Timer} {timer : Timer} {s : Suspension} {closes : Bool}
    {outer : ChannelId} {r : Resolved} {k : Nat} {rest : Multiset (Nat × Flight)} (now : Nat)
    (h : m.timers = before ++ timer :: after)
    (halarm : timer.alarm = .resolve (.registered s) closes outer r)
    (hlive : l.live = rest + {(k, .parked s closes outer r)})
    (hflights : (({ m with timers := before ++ after, clock := now } : Machine).ring
      timer.alarm).inFlight = rest.map Prod.snd + {.queued (.resume s r)}) :
    Follows m l (({ m with timers := before ++ after, clock := now } : Machine).ring timer.alarm)
      { l with live := rest + {(k, .queued (.resume s r))} }
  | fails {channel : ChannelId} (page : String) (context : Context) (e : CauseChain)
    (hflights : (m.runFailedPage page context channel e).inFlight = m.inFlight) :
    Follows m l (m.runFailedPage page context channel e)
      { l with issued := l.issued + 1, completed := l.completed ++ [l.issued] }
  | calm {m' : Machine} {fresh : List Flight} (h : m.Calm m') (hfresh : ∀ g ∈ fresh, g.IsFirst)
    (hflights : m'.inFlight = m.inFlight + ↑fresh) : Follows m l m' (l.issue fresh)

/-- Whether a ledger holds every flight of a machine, and every number in one place. -/
structure Exact (l : Ledger) (m : Machine) : Prop where
  flights : m.inFlight = l.live.map Prod.snd
  numbers : l.live.map Prod.fst + ↑l.completed = Multiset.range l.issued

variable {l l' : Ledger} {m m' : Machine} {f : Flight} {fresh : List Flight}

theorem map_snd_issue (l : Ledger) (fresh : List Flight) :
    (l.issue fresh).live.map Prod.snd = l.live.map Prod.snd + ↑fresh := by
  have hzip : ((List.range' l.issued fresh.length).zip fresh).map Prod.snd = fresh :=
    List.map_snd_zip (by rw [List.length_range'])
  rw [issue, Multiset.map_add, Multiset.map_coe, hzip]

theorem map_fst_issue (l : Ledger) (fresh : List Flight) :
    (l.issue fresh).live.map Prod.fst
      =
    l.live.map Prod.fst + ↑(List.range' l.issued fresh.length) := by
  have hzip : ((List.range' l.issued fresh.length).zip fresh).map Prod.fst
      = List.range' l.issued fresh.length :=
    List.map_fst_zip (by rw [List.length_range'])
  rw [issue, Multiset.map_add, Multiset.map_coe, hzip]

theorem range_add (n k : Nat) :
    Multiset.range (n + k) = Multiset.range n + ↑(List.range' n k) := by
  rw [Multiset.range, Multiset.range, List.range_eq_range', List.range_eq_range',
    Multiset.coe_add, Multiset.coe_eq_coe, ← List.range'_append_1, Nat.zero_add]

theorem Exact.issue (hnumbers : l.live.map Prod.fst + ↑l.completed = Multiset.range l.issued)
    (hflights : m.inFlight = l.live.map Prod.snd + ↑fresh) : (l.issue fresh).Exact m where
  flights := by rw [hflights, map_snd_issue]
  numbers := by
    rw [map_fst_issue, add_right_comm]
    change l.live.map Prod.fst + ↑l.completed + _ = Multiset.range (l.issued + fresh.length)
    rw [hnumbers, range_add]

theorem exact_new (settings : Settings) (pages : List Page) (decorators : List Decorator) :
    blank.Exact (.new settings pages decorators) := ⟨rfl, rfl⟩

theorem Follows.exact (h : l.Follows m m' l') (hl : l.Exact m) : l'.Exact m' := by
  have hnumbers := hl.numbers
  cases h with
  | goes hstart hnext hlive hfresh hflights =>
    rw [hlive, Multiset.map_add] at hnumbers
    apply Exact.issue
    . rw [Multiset.map_add]
      exact hnumbers
    . rw [Machine.inFlight_endJob, hflights, Multiset.map_add]
      rfl
  | @completes job started last result k rest fresh hstart hnext hdone hlive hfresh hflights =>
    rw [hlive, Multiset.map_add] at hnumbers
    apply Exact.issue
    . rw [← hnumbers, ← Multiset.coe_add, ← add_assoc, add_right_comm]
      rfl
    . rw [Machine.inFlight_endJob, hflights]
  | wakes now htimers halarm hlive hflights =>
    rw [hlive, Multiset.map_add] at hnumbers
    constructor
    case flights =>
      rw [hflights, Multiset.map_add]
      rfl
    case numbers =>
      rw [Multiset.map_add]
      exact hnumbers
  | fails page context e hflights =>
    constructor
    case flights => rw [hflights, hl.flights]
    case numbers =>
      change l.live.map Prod.fst + ↑(l.completed ++ [l.issued]) = Multiset.range (l.issued + 1)
      rw [range_add, ← hnumbers, ← Multiset.coe_add, add_assoc]
      rfl
  | calm hcalm hfresh hflights =>
    apply Exact.issue hnumbers
    rw [hflights, hl.flights]

theorem Exact.exists_number {others : Multiset Flight} (hl : l.Exact m)
    (hf : m.inFlight = others + {f}) :
    ∃ k rest, l.live = rest + {(k, f)} ∧ rest.map Prod.snd = others := by
  rw [hl.flights] at hf
  have hmem : f ∈ l.live.map Prod.snd := by
    rw [hf]
    exact Multiset.mem_add.mpr (.inr (Multiset.mem_singleton_self f))
  obtain ⟨⟨k, g⟩, hlive, rfl⟩ := Multiset.mem_map.mp hmem
  obtain ⟨rest, hrest⟩ := Multiset.exists_cons_of_mem hlive
  rw [← Multiset.singleton_add, add_comm] at hrest
  refine ⟨k, rest, hrest, ?_⟩
  rw [hrest, Multiset.map_add] at hf
  exact add_right_cancel hf

theorem exists_fresh_of_calm (h : m.Calm m') :
    ∃ fresh : List Flight, (∀ g ∈ fresh, g.IsFirst) ∧ m'.inFlight = m.inFlight + ↑fresh := by
  have hsame : m'.inFlight = m.inFlight → ∃ fresh : List Flight,
      (∀ g ∈ fresh, g.IsFirst) ∧ m'.inFlight = m.inFlight + ↑fresh := by
    intro heq
    refine ⟨[], List.forall_mem_nil _, ?_⟩
    rw [heq, Multiset.coe_nil, add_zero]
  cases h with
  | @reorder waiting hperm =>
    apply hsame
    have hmap := Multiset.coe_eq_coe.mpr (hperm.map Flight.queued)
    rw [Machine.inFlight, hmap]
    rfl
  | ring now htimers hp => exact hsame (Machine.inFlight_ring_of_none now htimers hp)
  | @dispatch channel request hc =>
    have hacts := @Machine.acts_dispatch m (fun _ => True) channel channel trivial hc request false
    obtain ⟨fresh, hfresh, heq⟩ := hacts.inFlight_eq_add
    exact ⟨fresh, fun g hg => (hfresh g hg).1, heq⟩
  | @runChain channel chain context hc =>
    refine ⟨[_], ?_, Machine.inFlight_submit _⟩
    intro g hg
    rw [List.mem_singleton.mp hg]
    exact ⟨chain, context, channel, channel, .caller, rfl⟩
  | connect wire hw => exact hsame (Machine.inFlight_eq rfl rfl)
  | close id => exact hsame (Machine.inFlight_eq rfl rfl)
  | rewire id hw => exact hsame (Machine.inFlight_eq rfl rfl)
  | registerPage page => exact hsame (Machine.inFlight_eq rfl rfl)
  | addDecorator decorator => exact hsame (Machine.inFlight_eq rfl rfl)

/-- Whatever happens next, the ledger can be kept. -/
theorem Exact.exists_follows (hl : l.Exact m) (hm : m.Sane) (h : m.Stirs m') :
    ∃ l', l.Follows m m' l' := by
  cases h with
  | @work job started hstart =>
    obtain ⟨k, rest, hlive, hrest⟩ := hl.exists_number (Machine.inFlight_startJob? hstart)
    obtain ⟨fresh, hfresh, hflights⟩ := Machine.inFlight_work (hm.fits_startJob? hstart)
    cases hnext : (started.turn job).2.flight? with
    | some f =>
      rw [hnext, ← hrest] at hflights
      exact ⟨_, .goes hstart hnext hlive hfresh hflights⟩
    | none =>
      rw [hnext, ← hrest, Option.toList_none, Multiset.coe_nil, add_zero] at hflights
      obtain ⟨last, result, hdone⟩ := Machine.work_of_none hnext
      exact ⟨_, .completes hstart hnext hdone hlive hfresh hflights⟩
  | wake now htimers halarm =>
    obtain ⟨others, hbefore, hafter⟩ := Machine.inFlight_ring_of_registered now htimers halarm
    obtain ⟨k, rest, hlive, hrest⟩ := hl.exists_number hbefore
    rw [← hrest] at hafter
    exact ⟨_, .wakes now htimers halarm hlive hafter⟩
  | @failPage channel page context e hc =>
    have hacts := @Machine.acts_runFailedPage m (fun _ => False) channel page context e
    exact ⟨_, .fails page context e hacts.inFlight_of_nobody⟩
  | calm h =>
    obtain ⟨fresh, hfresh, hflights⟩ := exists_fresh_of_calm h
    exact ⟨_, .calm h hfresh hflights⟩

theorem Exact.nodup (hl : l.Exact m) : (l.live.map Prod.fst + ↑l.completed).Nodup := by
  rw [hl.numbers]
  exact Multiset.nodup_range l.issued

theorem Exact.completed_nodup (hl : l.Exact m) : l.completed.Nodup :=
  Multiset.coe_nodup.mp (Multiset.nodup_add.mp hl.nodup).2.1

end Ledger

/-- The ledgers of the executions that lead to a machine. -/
inductive Machine.Books (settings : Settings) : Machine → Ledger → Prop
  | new (pages : List Page) (decorators : List Decorator) :
    Books settings (.new settings pages decorators) .blank
  | next {m m' : Machine} {l l' : Ledger} (h : Books settings m l) (hnext : l.Follows m m' l') :
    Books settings m' l'

namespace Machine

variable {settings : Settings} {m : Machine} {l : Ledger}

theorem Books.exact (h : Books settings m l) : l.Exact m := by
  induction h with
  | new pages decorators => exact Ledger.exact_new settings pages decorators
  | next _ hnext ih => exact hnext.exact ih

theorem Stirred.exists_books (h : Stirred settings m) : ∃ l, Books settings m l := by
  induction h with
  | new pages decorators => exact ⟨_, .new pages decorators⟩
  | next hbefore hnext ih =>
    obtain ⟨l, hbooks⟩ := ih
    obtain ⟨l', hfollows⟩ := hbooks.exact.exists_follows hbefore.sane hnext
    exact ⟨l', hbooks.next hfollows⟩

end Machine
end PageDispatch
