import Mathlib.Algebra.Group.Nat.Defs
import Mathlib.Data.List.Induction
import PageDispatch.Pool

/-!
This module contains the verification that a pool conserves its jobs: whatever is submitted by whom
and whichever jobs panic, the one worker takes every job once, in the order in which they came, and
the counters tell how many came, how many are done and how many are left.
-/

namespace PageDispatch

/-- What can happen to a pool. Jobs are submitted by anybody, also by the job that runs. -/
inductive PoolEvent (ι : Type) where
  | submit (job : ι)
  | arrive
  | start
  | finish (panicked : Bool)
  deriving DecidableEq, Repr

namespace PoolEvent

variable {ι : Type}

def submits? : PoolEvent ι → Option ι
  | submit job => some job
  | arrive | start | finish _ => none

/-- The same event, if no job panicked. -/
def calmed : PoolEvent ι → PoolEvent ι
  | finish _ => finish false
  | e => e

end PoolEvent

/-- The jobs that a pool has yet to do: those that wait and the one that runs. -/
def Pool.load {ι : Type} (p : Pool ι) : Nat := p.waiting.length + p.running.toList.length

/-- A pool and what it has gone through. -/
structure PoolCourse (ι : Type) where
  pool : Pool ι
  submitted : List ι
  taken : List ι
  /-- The jobs that came to an end, and whether they panicked. -/
  ended : List (ι × Bool)

namespace PoolCourse

variable {ι : Type} {c c' : PoolCourse ι}

def new (config : PoolConfig) : PoolCourse ι := ⟨.new config, [], [], []⟩

/-- What cannot happen changes nothing: a job that starts while another runs, or an end of none. -/
def next (c : PoolCourse ι) : PoolEvent ι → PoolCourse ι
  | .submit job => { c with pool := c.pool.submit job, submitted := c.submitted ++ [job] }
  | .arrive => { c with pool := c.pool.tryAdmit.2 }
  | .start =>
    match c.pool.start? with
    | some (job, pool) => { c with pool, taken := c.taken ++ [job] }
    | none => c
  | .finish panicked =>
    match c.pool.running with
    | some job => { c with pool := c.pool.finish panicked, ended := c.ended ++ [(job, panicked)] }
    | none => c

/-- A fresh pool after some events. -/
def after (config : PoolConfig) (events : List (PoolEvent ι)) : PoolCourse ι :=
  events.foldl next (new config)

theorem after_concat (config : PoolConfig) (events : List (PoolEvent ι)) (e : PoolEvent ι) :
    after config (events ++ [e]) = (after config events).next e := by
  unfold after
  rw [List.foldl_append, List.foldl_cons, List.foldl_nil]

section Steps

theorem start?_eq_some {p pool : Pool ι} {job : ι} (h : p.start? = some (job, pool)) :
    p.running = none ∧ p.waiting = job :: pool.waiting ∧
      pool = { p with waiting := pool.waiting, running := some job } := by
  unfold Pool.start? at h
  split at h
  . next rest hrunning hwaiting =>
    cases h
    exact ⟨hrunning, hwaiting, rfl⟩
  . cases h

theorem finish_of_running {p : Pool ι} {job : ι} (h : p.running = some job) (panicked : Bool) :
    p.finish panicked = { p with
      running := none
      metrics := (if panicked then p.metrics.recordPanic else p.metrics).recordCompletion } := by
  unfold Pool.finish
  rw [h]

/-- What an event makes of a pool in its course, as far as it can happen at all. -/
inductive Follows (c : PoolCourse ι) : PoolEvent ι → PoolCourse ι → Prop
  | submit (job : ι) : Follows c (.submit job)
    { c with pool := c.pool.submit job, submitted := c.submitted ++ [job] }
  | arrive {metrics : PoolMetrics} (h : metrics = c.pool.metrics ∨
      metrics = c.pool.metrics.recordShed) :
    Follows c .arrive { c with pool := { c.pool with metrics } }
  | start {job : ι} {rest : List ι} (hrunning : c.pool.running = none)
    (hwaiting : c.pool.waiting = job :: rest) :
    Follows c .start { c with
      pool := { c.pool with waiting := rest, running := some job }
      taken := c.taken ++ [job] }
  | finish {job : ι} (hrunning : c.pool.running = some job) (panicked : Bool) :
    Follows c (.finish panicked) { c with
      pool := { c.pool with
        running := none
        metrics :=
          (if panicked then c.pool.metrics.recordPanic else c.pool.metrics).recordCompletion }
      ended := c.ended ++ [(job, panicked)] }
  | idle {e : PoolEvent ι} (h : e.submits? = none) : Follows c e c

theorem follows_next (c : PoolCourse ι) (e : PoolEvent ι) : c.Follows e (c.next e) := by
  cases e with
  | submit job => exact .submit job
  | arrive =>
    have hadmit : ∃ metrics, (metrics = c.pool.metrics ∨ metrics = c.pool.metrics.recordShed) ∧
        c.pool.tryAdmit.2 = { c.pool with metrics } := by
      unfold Pool.tryAdmit
      split
      . exact ⟨_, .inr rfl, rfl⟩
      . exact ⟨_, .inl rfl, rfl⟩
    obtain ⟨metrics, hmetrics, hpool⟩ := hadmit
    unfold next
    rw [hpool]
    exact .arrive hmetrics
  | start =>
    unfold next
    dsimp only
    split
    . next job pool hstart =>
      obtain ⟨hrunning, hwaiting, hpool⟩ := start?_eq_some hstart
      rw [hpool]
      exact .start hrunning hwaiting
    . exact .idle rfl
  | finish panicked =>
    unfold next
    dsimp only
    split
    . next job hrunning =>
      rw [finish_of_running hrunning]
      exact .finish hrunning panicked
    . exact .idle rfl

end Steps

section Conservation

/--
Whether every job of a course was taken as it came and is done, running or waiting, and the counters
tell how many there are of each, up to the size of a word.
-/
structure Conserves (c : PoolCourse ι) : Prop where
  order : c.submitted = c.taken ++ c.pool.waiting
  once : c.taken = c.ended.map (·.1) ++ c.pool.running.toList
  dispatched : c.pool.metrics.dispatched = .ofNat c.submitted.length
  completed : c.pool.metrics.completed = .ofNat c.ended.length
  panicked : c.pool.metrics.panicked = .ofNat (c.ended.countP (·.2))
  depth : c.pool.metrics.depth = .ofNat c.pool.load

theorem conserves_new (config : PoolConfig) : (new config : PoolCourse ι).Conserves :=
  ⟨rfl, rfl, rfl, rfl, rfl, rfl⟩

theorem ofNat_succ (n : Nat) : UInt64.ofNat (n + 1) = .ofNat n + 1 := UInt64.ofNat_add n 1

theorem Conserves.follows {e : PoolEvent ι} (hc : c.Conserves) (h : c.Follows e c') :
    c'.Conserves := by
  cases h with
  | submit job =>
    constructor
    case order => rw [Pool.waiting_submit, hc.order, List.append_assoc]
    case once => exact hc.once
    case dispatched =>
      rw [List.length_append, List.length_singleton, ofNat_succ, ← hc.dispatched]
      rfl
    case completed => exact hc.completed
    case panicked => exact hc.panicked
    case depth =>
      have hload : (c.pool.submit job).load = c.pool.load + 1 := by
        unfold Pool.load
        rw [Pool.waiting_submit, Pool.running_submit, List.length_append, List.length_singleton,
          Nat.add_right_comm]
      rw [hload, ofNat_succ, ← hc.depth]
      rfl
  | arrive hmetrics =>
    -- A refusal is counted, but in a counter of its own.
    cases hmetrics with
    | inl heq =>
      subst heq
      exact ⟨hc.order, hc.once, hc.dispatched, hc.completed, hc.panicked, hc.depth⟩
    | inr heq =>
      subst heq
      exact ⟨hc.order, hc.once, hc.dispatched, hc.completed, hc.panicked, hc.depth⟩
  | @start job rest hrunning hwaiting =>
    constructor
    case order =>
      dsimp only
      rw [hc.order, hwaiting, List.append_assoc, List.singleton_append]
    case once =>
      dsimp only
      rw [hc.once, hrunning, Option.toList_none, List.append_nil, Option.toList_some]
    case dispatched => exact hc.dispatched
    case completed => exact hc.completed
    case panicked => exact hc.panicked
    case depth =>
      have hload : c.pool.load = rest.length + 1 := by
        rw [Pool.load, hwaiting, hrunning]
        rfl
      have hdepth := hc.depth
      rw [hload] at hdepth
      exact hdepth
  | @finish job hrunning panicked =>
    constructor
    case order => exact hc.order
    case once =>
      dsimp only
      rw [hc.once, hrunning, List.map_append, Option.toList_none, List.append_nil,
        Option.toList_some]
      rfl
    case dispatched =>
      rw [← hc.dispatched]
      cases panicked <;> rfl
    case completed =>
      rw [List.length_append, List.length_singleton, ofNat_succ, ← hc.completed]
      cases panicked <;> rfl
    case panicked =>
      rw [List.countP_append, List.countP_singleton]
      cases panicked with
      | false => exact hc.panicked
      | true =>
        have hcount : UInt64.ofNat (c.ended.countP (·.2) + 1) = c.pool.metrics.panicked + 1 := by
          rw [ofNat_succ, ← hc.panicked]
        exact hcount.symm
    case depth =>
      have hload : c.pool.load = c.pool.waiting.length + 1 := by
        rw [Pool.load, hrunning]
        rfl
      have hdepth := hc.depth
      rw [hload, ofNat_succ] at hdepth
      have hleft : c.pool.metrics.depth - 1 = .ofNat c.pool.waiting.length := by
        rw [hdepth, UInt64.add_sub_cancel]
      rw [Pool.load, Option.toList_none, List.length_nil, Nat.add_zero, ← hleft]
      cases panicked <;> rfl
  | idle => exact hc

theorem conserves_after (config : PoolConfig) (events : List (PoolEvent ι)) :
    (after config events).Conserves := by
  induction events using List.reverseRecOn with
  | nil => exact conserves_new config
  | append_singleton rest e ih =>
    rw [after_concat]
    exact ih.follows (follows_next _ e)

theorem Conserves.length_submitted (h : c.Conserves) :
    c.submitted.length = c.ended.length + c.pool.load := by
  rw [h.order, h.once, Pool.load]
  simp only [List.length_append, List.length_map]
  omega

/-- What came and is not done is what the gauge shows. -/
theorem Conserves.depth_eq_sub (h : c.Conserves) :
    c.pool.metrics.dispatched - c.pool.metrics.completed = c.pool.metrics.depth := by
  rw [h.dispatched, h.completed, h.depth, h.length_submitted, Nat.add_comm, UInt64.ofNat_add,
    UInt64.add_sub_cancel]

theorem toNat_ofNat {w : UInt64} {n : Nat} (h : w = .ofNat n) (hn : n < 2 ^ 64) : w.toNat = n := by
  rw [h, UInt64.toNat_ofNat_of_lt' hn]

theorem Conserves.panicked_le_completed (h : c.Conserves) (hlt : c.ended.length < 2 ^ 64) :
    c.pool.metrics.panicked ≤ c.pool.metrics.completed := by
  have hle : c.ended.countP (·.2) ≤ c.ended.length := List.countP_le_length
  rw [UInt64.le_iff_toNat_le, toNat_ofNat h.panicked (Nat.lt_of_le_of_lt hle hlt),
    toNat_ofNat h.completed hlt]
  exact hle

end Conservation

section Panics

/-- Whether two courses treat the same jobs in the same way, whichever of them panicked. -/
structure Agrees (c c' : PoolCourse ι) : Prop where
  submitted : c'.submitted = c.submitted
  taken : c'.taken = c.taken
  ended : c'.ended.map (·.1) = c.ended.map (·.1)
  waiting : c'.pool.waiting = c.pool.waiting
  running : c'.pool.running = c.pool.running

theorem Agrees.symm (h : c.Agrees c') : c'.Agrees c :=
  ⟨h.submitted.symm, h.taken.symm, h.ended.symm, h.waiting.symm, h.running.symm⟩

theorem Agrees.trans {c'' : PoolCourse ι} (h : c.Agrees c') (h' : c'.Agrees c'') :
    c.Agrees c'' where
  submitted := h'.submitted.trans h.submitted
  taken := h'.taken.trans h.taken
  ended := h'.ended.trans h.ended
  waiting := h'.waiting.trans h.waiting
  running := h'.running.trans h.running

theorem running_tryAdmit (p : Pool ι) : p.tryAdmit.2.running = p.running := by
  unfold Pool.tryAdmit
  split <;> rfl

theorem Agrees.next_calmed (h : c.Agrees c') (e : PoolEvent ι) :
    (c.next e).Agrees (c'.next e.calmed) := by
  cases e with
  | submit job =>
    constructor
    case submitted => exact congrArg (· ++ [job]) h.submitted
    case taken => exact h.taken
    case ended => exact h.ended
    case waiting => exact congrArg (· ++ [job]) h.waiting
    case running => exact h.running
  | arrive =>
    refine ⟨h.submitted, h.taken, h.ended, ?_, ?_⟩
    . exact (Pool.waiting_tryAdmit _).trans (h.waiting.trans (Pool.waiting_tryAdmit _).symm)
    . exact (running_tryAdmit _).trans (h.running.trans (running_tryAdmit _).symm)
  | start =>
    unfold PoolEvent.calmed next Pool.start?
    rw [h.running, h.waiting]
    cases c.pool.running with
    | some job => exact h
    | none =>
      cases c.pool.waiting with
      | nil => exact h
      | cons job rest => exact ⟨h.submitted, congrArg (· ++ [job]) h.taken, h.ended, rfl, rfl⟩
  | finish panicked =>
    unfold PoolEvent.calmed next
    dsimp only
    rw [h.running]
    cases hrunning : c.pool.running with
    | none => exact h
    | some job =>
      dsimp only
      rw [finish_of_running hrunning, finish_of_running (h.running.trans hrunning)]
      refine ⟨h.submitted, h.taken, ?_, h.waiting, rfl⟩
      rw [List.map_append, List.map_append, h.ended]
      rfl

theorem agrees_calmed (config : PoolConfig) (events : List (PoolEvent ι)) :
    (after config events).Agrees (after config (events.map PoolEvent.calmed)) := by
  induction events using List.reverseRecOn with
  | nil => exact ⟨rfl, rfl, rfl, rfl, rfl⟩
  | append_singleton rest e ih =>
    rw [List.map_append, List.map_singleton, after_concat, after_concat]
    exact ih.next_calmed e

theorem agrees_of_calmed_eq (config : PoolConfig) {events events' : List (PoolEvent ι)}
    (h : events'.map PoolEvent.calmed = events.map PoolEvent.calmed) :
    (after config events).Agrees (after config events') := by
  have hcalmed := agrees_calmed config events
  rw [← h] at hcalmed
  exact hcalmed.trans (agrees_calmed config events').symm

end Panics

section Turns

/-- The events by which the worker takes a job, if it has none yet, and ends it, time after time. -/
def turns (outcomes : List Bool) : List (PoolEvent ι) :=
  outcomes.flatMap fun panicked => [.start, .finish panicked]

theorem load_finish {job : ι} (h : c.pool.running = some job) (panicked : Bool) :
    (c.next (.finish panicked)).pool.load = c.pool.waiting.length := by
  unfold next
  rw [h]
  dsimp only
  rw [finish_of_running h]
  rfl

theorem exists_running_start {n : Nat} (h : c.pool.load = n + 1) :
    ∃ job, (c.next .start).pool.running = some job ∧
      (c.next .start).pool.waiting.length = n := by
  unfold Pool.load at h
  unfold next Pool.start?
  cases hrunning : c.pool.running with
  | some job =>
    rw [hrunning] at h
    exact ⟨job, hrunning, Nat.succ.inj h⟩
  | none =>
    rw [hrunning] at h
    obtain ⟨job, rest, hwaiting⟩ := List.exists_cons_of_length_eq_add_one h
    rw [hwaiting] at h ⊢
    exact ⟨job, rfl, Nat.succ.inj h⟩

theorem load_turns {outcomes : List Bool} (h : c.pool.load = outcomes.length) :
    ((turns outcomes).foldl next c).pool.load = 0 := by
  induction outcomes generalizing c with
  | nil => exact h
  | cons panicked rest ih =>
    obtain ⟨job, hrunning, hlength⟩ := exists_running_start h
    exact ih ((load_finish hrunning panicked).trans hlength)

theorem submits?_turns (outcomes : List Bool) :
    (turns outcomes : List (PoolEvent ι)).filterMap PoolEvent.submits? = [] := by
  induction outcomes with
  | nil => rfl
  | cons panicked rest ih => exact ih

end Turns

theorem submitted_follows {e : PoolEvent ι} (h : c.Follows e c') :
    c'.submitted = c.submitted ++ e.submits?.toList := by
  cases h with
  | submit job => rfl
  | arrive hmetrics => exact (List.append_nil _).symm
  | start hrunning hwaiting => exact (List.append_nil _).symm
  | finish hrunning panicked => exact (List.append_nil _).symm
  | idle h => rw [h, Option.toList_none, List.append_nil]

theorem submitted_after (config : PoolConfig) (events : List (PoolEvent ι)) :
    (after config events).submitted = events.filterMap PoolEvent.submits? := by
  induction events using List.reverseRecOn with
  | nil => rfl
  | append_singleton rest e ih =>
    have hlast : e.submits?.toList = [e].filterMap PoolEvent.submits? := by
      cases h : e.submits? <;> simp [h]
    rw [after_concat, submitted_follows (follows_next _ e), ih, List.filterMap_append, hlast]

theorem Conserves.ended_of_load (h : c.Conserves) (hload : c.pool.load = 0) :
    c.ended.map (·.1) = c.submitted := by
  obtain ⟨hwaiting, hrunning⟩ := Nat.add_eq_zero_iff.mp hload
  rw [h.order, h.once, List.length_eq_zero_iff.mp hwaiting, List.length_eq_zero_iff.mp hrunning,
    List.append_nil, List.append_nil]

/-- As many turns as there are jobs left do them all, in whatever way they end. -/
theorem drained_after (config : PoolConfig) (events : List (PoolEvent ι)) {outcomes : List Bool}
    (h : outcomes.length = (after config events).pool.load) :
    (after config (events ++ turns outcomes)).ended.map (·.1)
      = events.filterMap PoolEvent.submits? ∧
    (after config (events ++ turns outcomes)).pool.metrics.depth = 0 := by
  have hconserves := conserves_after config (events ++ turns outcomes)
  have hload : (after config (events ++ turns outcomes)).pool.load = 0 := by
    unfold after
    rw [List.foldl_append]
    exact load_turns h.symm
  constructor
  . rw [hconserves.ended_of_load hload, submitted_after, List.filterMap_append, submits?_turns,
      List.append_nil]
  . rw [hconserves.depth, hload]
    rfl

/--
Whatever happens to a pool, the jobs that were submitted are those that are done, the one that runs
and those that wait, in this order, and when none waits all were taken. The gauge shows the jobs
that are left, which are those that came but for those that are done, and panics are counted among
the latter. A panic makes no difference to any other job, and the worker comes to an end with all
jobs whichever of them panic.
-/
theorem conserves_jobs (config : PoolConfig) (events : List (PoolEvent ι)) :
    (after config events).Conserves ∧
    (after config events).submitted = events.filterMap PoolEvent.submits? ∧
    ((after config events).pool.waiting = [] →
      (after config events).taken = events.filterMap PoolEvent.submits?) ∧
    (after config events).pool.metrics.dispatched - (after config events).pool.metrics.completed
      = (after config events).pool.metrics.depth ∧
    ((after config events).pool.load < 2 ^ 64 →
      (after config events).pool.metrics.depth.toNat = (after config events).pool.load) ∧
    ((events.filterMap PoolEvent.submits?).length < 2 ^ 64 →
      (after config events).pool.metrics.dispatched.toNat
        = (after config events).pool.metrics.completed.toNat + (after config events).pool.load ∧
      (after config events).pool.metrics.panicked
        ≤ (after config events).pool.metrics.completed) ∧
    (∀ events', events'.map PoolEvent.calmed = events.map PoolEvent.calmed →
      (after config events).Agrees (after config events')) ∧
    (∀ outcomes : List Bool, outcomes.length = (after config events).pool.load →
      (after config (events ++ turns outcomes)).ended.map (·.1)
        = events.filterMap PoolEvent.submits? ∧
      (after config (events ++ turns outcomes)).pool.metrics.depth = 0) := by
  have h := conserves_after config events
  have hsubmitted := submitted_after config events
  refine ⟨h, hsubmitted, ?_, h.depth_eq_sub, toNat_ofNat h.depth, ?_,
    fun events' => agrees_of_calmed_eq config, fun outcomes => drained_after config events⟩
  . intro hwaiting
    rw [← hsubmitted, h.order, hwaiting, List.append_nil]
  . intro hlt
    rw [← hsubmitted] at hlt
    have hlength := h.length_submitted
    have hended : (after config events).ended.length < 2 ^ 64 := by omega
    refine ⟨?_, h.panicked_le_completed hended⟩
    rw [toNat_ofNat h.dispatched hlt, toNat_ofNat h.completed hended, hlength]

/-- A job submits another one and panics, while a third one comes from outside. -/
def stumbling : List (PoolEvent String) :=
  [.submit "first", .start, .submit "second", .submit "third", .finish true, .start]

theorem conserved_of_stumbling :
    (after .default stumbling).pool.metrics.depth.toNat = 2 ∧
    (after .default stumbling).pool.metrics.panicked
      ≤ (after .default stumbling).pool.metrics.completed ∧
    (after .default (stumbling ++ [.finish false, .start])).taken = ["first", "second", "third"] ∧
    (after .default stumbling).Agrees (after .default (stumbling.map PoolEvent.calmed)) ∧
    (after .default (stumbling ++ turns [true, false])).ended.map (·.1)
      = ["first", "second", "third"] := by
  obtain ⟨-, -, -, -, hdepth, hbounded, hcalmed, hdrained⟩ := conserves_jobs .default stumbling
  obtain ⟨-, -, hemptied, -⟩ := conserves_jobs .default (stumbling ++ [.finish false, .start])
  obtain ⟨-, hpanicked⟩ := hbounded (by decide)
  exact ⟨hdepth (by decide), hpanicked, hemptied rfl, hcalmed _ rfl,
    (hdrained [true, false] rfl).1⟩

end PoolCourse
end PageDispatch
