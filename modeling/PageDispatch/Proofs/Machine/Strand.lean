import Mathlib.Algebra.Order.Group.Multiset
import PageDispatch.Proofs.Machine.Operations

/-!
This module contains strands: what a machine holds that belongs to one dispatch, whatever else it is
working on. Nothing that is done on behalf of others touches a strand.
-/

namespace PageDispatch

inductive Flight where
  | queued (job : Job)
  | parked (s : Suspension) (closes : Bool) (outer : ChannelId) (r : Resolved)

namespace Flight

def run : Flight → Run
  | queued job => job.run
  | parked s _ _ _ => s.run

end Flight

namespace Job

def flight? (i : Nat) (job : Job) : Option Flight :=
  if job.run.owner.id? = some i then some (.queued job) else none

end Job

namespace Alarm

def flight? (i : Nat) : Alarm → Option Flight
  | resolve (.registered s) closes outer r =>
    if s.run.owner.id? = some i then some (.parked s closes outer r) else none
  | _ => none

def delivery? (i : Nat) : Alarm → Option (ChannelId × Response)
  | deliver dispatch channel _ r => if dispatch = i then some (channel, r) else none
  | _ => none

end Alarm

/-- What belongs to one dispatch. -/
@[ext]
structure Strand where
  flights : Multiset Flight
  /-- The responses that wait for the end of their delay. -/
  due : Multiset (ChannelId × Response)
  /-- Oldest event first. -/
  events : List Event

namespace Strand

def empty : Strand := ⟨0, 0, []⟩

def fly (s : Strand) (f : Flight) : Strand := { s with flights := s.flights + {f} }

def owe (s : Strand) (channel : ChannelId) (r : Response) : Strand :=
  { s with due := s.due + {(channel, r)} }

def note (s : Strand) (es : List Event) : Strand := { s with events := s.events ++ es }

@[simp]
theorem note_nil (s : Strand) : s.note [] = s := by
  simp [note]

@[simp]
theorem note_note (s : Strand) (es es' : List Event) : (s.note es).note es' = s.note (es ++ es') := by
  simp [note]

end Strand

namespace Machine

def strand (m : Machine) (i : Nat) : Strand where
  flights := ↑(m.pool.waiting.filterMap (Job.flight? i)) +
    ↑(m.timers.filterMap fun timer => timer.alarm.flight? i)
  due := ↑(m.timers.filterMap fun timer => timer.alarm.delivery? i)
  events := m.journal.filter fun e => e.dispatch? = some i

def Fresh (m : Machine) : Prop := ∀ i, m.dispatches ≤ i → m.strand i = .empty

variable {m m' : Machine} {who : Nat → Prop} {i : Nat}

theorem mem_strand_of_mem_journal {e : Event} (h : e ∈ m.journal) (he : e.dispatch? = some i) :
    e ∈ (m.strand i).events :=
  List.mem_filter.mpr ⟨h, decide_eq_true he⟩

theorem Fresh.lt_of_mem_journal {e : Event} (hm : m.Fresh) (h : e ∈ m.journal)
    (he : e.dispatch? = some i) : i < m.dispatches := by
  apply Nat.lt_of_not_le
  intro hle
  have hmem := mem_strand_of_mem_journal h he
  rw [hm i hle] at hmem
  cases hmem

theorem SameWork.strand_eq (h : m.SameWork m') : m'.strand i = m.strand i := by
  simp only [strand, h.waiting, h.timers, h.journal]

theorem strand_log_of_eq {e : Event} (h : e.dispatch? = some i) :
    (m.log e).strand i = (m.strand i).note [e] := by
  simp [strand, log, Strand.note, h]

theorem strand_log_of_ne {e : Event} (h : e.dispatch? ≠ some i) :
    (m.log e).strand i = m.strand i := by
  simp [strand, log, h]

theorem strand_submit_of_eq {job : Job} (h : job.run.owner.id? = some i) :
    (m.submit job).strand i = (m.strand i).fly (.queued job) := by
  have hjob : job.flight? i = some (.queued job) := if_pos h
  simp only [strand, submit, Pool.waiting_submit, List.filterMap_append, Strand.fly]
  congr 1
  rw [List.filterMap_cons_some hjob, List.filterMap_nil, ← Multiset.coe_add, Multiset.coe_singleton,
    add_right_comm]

theorem strand_submit_of_ne {job : Job} (h : job.run.owner.id? ≠ some i) :
    (m.submit job).strand i = m.strand i := by
  have hjob : job.flight? i = none := if_neg h
  simp [strand, submit, List.filterMap_append, hjob]

theorem strand_schedule_resolve {s : Suspension} {closes : Bool} {outer : ChannelId} {r : Resolved}
    {after : Nat} (h : s.run.owner.id? = some i) :
    (m.schedule after (.resolve (.registered s) closes outer r)).strand i
      =
    (m.strand i).fly (.parked s closes outer r) := by
  have hflight : Alarm.flight? i (.resolve (.registered s) closes outer r)
      = some (.parked s closes outer r) := if_pos h
  have hdelivery : Alarm.delivery? i (.resolve (.registered s) closes outer r) = none := rfl
  simp [strand, schedule, List.filterMap_append, hflight, hdelivery, Strand.fly,
    ← Multiset.coe_add, add_assoc]

theorem strand_schedule_resolve_of_ne {s : Suspension} {closes : Bool} {outer : ChannelId}
    {r : Resolved} {after : Nat} (h : s.run.owner.id? ≠ some i) :
    (m.schedule after (.resolve (.registered s) closes outer r)).strand i = m.strand i := by
  have hflight : Alarm.flight? i (.resolve (.registered s) closes outer r) = none := if_neg h
  have hdelivery : Alarm.delivery? i (.resolve (.registered s) closes outer r) = none := rfl
  simp [strand, schedule, List.filterMap_append, hflight, hdelivery]

theorem strand_schedule_deliver {channel outer : ChannelId} {r : Response} {after : Nat} :
    (m.schedule after (.deliver i channel outer r)).strand i = (m.strand i).owe channel r := by
  have hflight : Alarm.flight? i (.deliver i channel outer r) = none := rfl
  have hdelivery : Alarm.delivery? i (.deliver i channel outer r) = some (channel, r) := if_pos rfl
  simp [strand, schedule, List.filterMap_append, hflight, hdelivery, Strand.owe,
    ← Multiset.coe_add]

theorem strand_schedule_deliver_of_ne {dispatch : Nat} {channel outer : ChannelId} {r : Response}
    {after : Nat} (h : dispatch ≠ i) :
    (m.schedule after (.deliver dispatch channel outer r)).strand i = m.strand i := by
  have hflight : Alarm.flight? i (.deliver dispatch channel outer r) = none := rfl
  have hdelivery : Alarm.delivery? i (.deliver dispatch channel outer r) = none := if_neg h
  simp [strand, schedule, List.filterMap_append, hflight, hdelivery]

theorem Act.strand_eq (h : Act who m m') (hi : ¬(who i ∧ i < m.dispatches)) :
    m'.strand i = m.strand i := by
  have hother : ∀ {owner : Option Nat}, m.Allows who owner → owner ≠ some i := by
    intro owner ho heq
    exact hi (ho i heq)
  cases h with
  | log hb ho => exact strand_log_of_ne (hother ho)
  | close id => exact strand_log_of_ne (m := m.shut id) (fun heq => nomatch heq)
  | record id sent => rfl
  | start chain ho hc => exact strand_submit_of_ne (hother ho)
  | postpone after channel outer r ho =>
    exact strand_schedule_deliver_of_ne (fun heq => hother ho (congrArg some heq))
  | connect wire hw => rfl
  | count hw => rfl
  | tune h => exact h.strand_eq

theorem Acts.strand_eq (h : Acts who m m') (hi : ¬who i) : m'.strand i = m.strand i := by
  induction h with
  | refl => rfl
  | tail _ hlast ih =>
    rw [hlast.strand_eq, ih]
    intro hwho
    exact hi hwho.1

theorem Act.fresh (h : Act who m m') (hm : m.Fresh) : m'.Fresh := by
  intro i hi
  have hle := Nat.le_trans h.grows.dispatches hi
  rw [h.strand_eq, hm i hle]
  intro hwho
  exact Nat.not_lt_of_le hle hwho.2

end Machine
end PageDispatch
