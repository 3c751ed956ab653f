import PageDispatch.Engine.Step

/-!
This module contains the order of events: waiting jobs first, then whatever is due next.
-/

namespace PageDispatch

namespace Timer

def first? : List Timer → Option (Timer × List Timer)
  | [] => none
  | timer :: rest =>
    match first? rest with
    | none => some (timer, rest)
    | some (other, others) =>
      if timer.due ≤ other.due then some (timer, rest) else some (other, timer :: others)

end Timer

namespace Machine

def ring (m : Machine) : Alarm → Machine
  | .resolve slot closes outer r =>
    let m := if closes then m.close outer else m
    (m.resolve slot r).1
  | .deliver dispatch channel outer response => m.sendNow dispatch channel outer response

def wait? (m : Machine) : Option Machine :=
  (Timer.first? m.timers).map fun (timer, timers) =>
    { m with timers, clock := max m.clock timer.due }.ring timer.alarm

def next? (m : Machine) : Option Machine :=
  m.runJob?.or m.wait?

/-- Lets things happen until nothing is left, at most `fuel` of them. -/
def settle : Nat → Machine → Machine
  | 0, m => m
  | fuel + 1, m =>
    match m.next? with
    | none => m
    | some m => m.settle fuel

theorem settle_of_next?_eq_none {m : Machine} (h : m.next? = none) (fuel : Nat) :
    m.settle fuel = m := by
  cases fuel <;> simp [settle, h]

theorem settle_add (m : Machine) (first second : Nat) :
    m.settle (first + second) = (m.settle first).settle second := by
  induction first generalizing m with
  | zero => simp [settle]
  | succ first ih =>
    rw [Nat.add_right_comm]
    simp only [settle]
    cases h : m.next? with
    | none => exact (settle_of_next?_eq_none h second).symm
    | some next => exact ih next

/--
Lets things happen until no job waits and `holds` is true of no timer that is left, at most `fuel`
of them.
-/
def settleWhile (holds : Timer → Bool) : Nat → Machine → Machine
  | 0, m => m
  | fuel + 1, m =>
    match m.runJob?.or (if m.timers.any holds then m.wait? else none) with
    | none => m
    | some m => m.settleWhile holds fuel

theorem wait?_of_timers_eq_nil {m : Machine} (h : m.timers = []) : m.wait? = none := by
  simp [wait?, h, Timer.first?]

theorem settleWhile_true (m : Machine) (fuel : Nat) :
    m.settleWhile (fun _ => true) fuel = m.settle fuel := by
  induction fuel generalizing m with
  | zero => rfl
  | succ fuel ih =>
    have h : (if m.timers.any (fun _ => true) then m.wait? else none) = m.wait? := by
      cases ht : m.timers with
      | nil => simp [wait?_of_timers_eq_nil ht]
      | cons timer rest => simp
    simp only [settleWhile, settle, next?, h]
    cases m.runJob?.or m.wait? with
    | none => rfl
    | some next => exact ih next

/-- Enough for everything that a request sets going, unless it never ends. -/
def patience : Nat := 1000000000

def settleAll (m : Machine) : Machine := m.settle patience

end Machine
end PageDispatch
