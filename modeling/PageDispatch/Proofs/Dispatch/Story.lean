import PageDispatch.Proofs.Dispatch.Pages

/-!
This module contains what can be seen of a dispatch from outside: its story, the failures that the
hook is told about, and its response. The course of a dispatch decides about all of it.
-/

namespace PageDispatch

def Event.report? : Event → Option FailureReport
  | reporting _ report => some report
  | _ => none

namespace Fate

def responses (channel : ChannelId) : Fate → List (ChannelId × Response)
  | answers _ _ r => [(channel, r)]
  | _ => []

def summary? (now : Nat) : Fate → Option (Bool × DispatchSummary)
  | flies _ => none
  | answers d disposition r => some (d.nested, d.summary now disposition (some r.status))
  | abandons d => some (d.nested, d.summary now .abandoned none)

theorem eq_responses_of_perm {fate : Fate} {channel : ChannelId}
    {rs : List (ChannelId × Response)} (h : rs.Perm (fate.responses channel)) :
    rs = fate.responses channel := by
  cases fate with
  | flies f => apply List.perm_nil.mp h
  | answers d disposition r => apply List.perm_singleton.mp h
  | abandons d => apply List.perm_nil.mp h

theorem isOver_of_summary? {fate : Fate} {now : Nat} {told : Bool × DispatchSummary}
    (h : fate.summary? now = some told) : fate.isOver = true := by
  cases fate with
  | flies f => cases h
  | answers d disposition r => rfl
  | abandons d => rfl

end Fate

structure Strand.Tail (i : Nat) (channel : ChannelId) (fate : Fate)
    (due : Multiset (ChannelId × Response)) (last : List Event) : Prop where
  outer : ∀ e ∈ last, e.isInner = false
  responses : ↑(last.filterMap (Event.sending? i)) + due = ↑(fate.responses channel)
  summary : ∀ nested s, .finished i nested s ∈ last → ∃ now, fate.summary? now = some (nested, s)

theorem Strand.tail_of_finished {i : Nat} {channel : ChannelId} {fate : Fate}
    {due : Multiset (ChannelId × Response)} {nested : Bool} {summary : DispatchSummary} (now : Nat)
    (hdue : due = ↑(fate.responses channel)) (h : fate.summary? now = some (nested, summary)) :
    Tail i channel fate due [.finished i nested summary] := by
  constructor
  . simp [Event.isInner]
  . rw [hdue]
    rfl
  . intro nested' s hmem
    cases List.mem_singleton.mp hmem
    exact ⟨now, h⟩

theorem Strand.tail_of_closing {i : Nat} {channel : ChannelId} {r : Response} {d : Dispatch}
    {disposition : Disposition} {now : Nat} {last : List Event}
    (h : Closing False i channel r
      (.finished i d.nested (d.summary now disposition (some r.status))) last) :
    Tail i channel (.answers d disposition r) 0 last := by
  have hfinished : ∀ nested s,
      Event.finished i nested s = .finished i d.nested (d.summary now disposition (some r.status)) →
        ∃ now, (Fate.answers d disposition r).summary? now = some (nested, s) := by
    intro nested s heq
    cases heq
    exact ⟨now, rfl⟩
  cases h with
  | sent =>
    constructor
    . simp [Event.isInner]
    . simp [Event.sending?, Fate.responses]
    . intro nested s hmem
      apply hfinished
      simpa using hmem
  | withheld hc => exact hc.elim
  | sentLater =>
    constructor
    . simp [Event.isInner]
    . simp [Event.sending?, Fate.responses, List.filterMap_cons]
    . intro nested s hmem
      apply hfinished
      simpa using hmem
  | withheldLater hc => exact hc.elim

theorem Strand.Shows.exists_tail {i : Nat} {channel : ChannelId} {request : Request} {s : Strand}
    {p : Prospect} (h : s.Shows i channel request p) :
    ∃ last, s.events = .received i channel request :: (p.events ++ last) ∧
      Tail i channel p.fate s.due last := by
  cases h with
  | @flies f es =>
    refine ⟨[], ?_, ?_⟩
    . simp
    . constructor
      . simp
      . rfl
      . simp
  | @owed es d disposition r now =>
    refine ⟨_, rfl, ?_⟩
    apply tail_of_finished now
    . rfl
    . rfl
  | @sent es last d disposition r now hlast => exact ⟨last, rfl, tail_of_closing hlast⟩
  | @abandoned es d now =>
    refine ⟨_, rfl, ?_⟩
    apply tail_of_finished now
    . rfl
    . rfl

namespace Machine

def story (m : Machine) (i : Nat) : List Event :=
  m.journal.filter fun e => e.dispatch? = some i && e.isInner

def reports (m : Machine) (i : Nat) : List FailureReport := (m.story i).filterMap Event.report?

def built (m : Machine) (i : Nat) : List String := (m.story i).filterMap Event.built?

/-- The responses of a dispatch that were sent, or wait for the end of their delay. -/
def responses (m : Machine) (i : Nat) : List (ChannelId × Response) := m.sends i ++ m.owes i

def Finished (m : Machine) (i : Nat) : Prop := ∃ nested s, .finished i nested s ∈ m.journal

variable {m n : Machine} {i : Nat} {channel : ChannelId} {request : Request} {p : Prospect}

theorem story_eq : m.story i = (m.strand i).events.filter Event.isInner := by
  unfold story strand
  rw [List.filter_filter]
  congr
  funext e
  apply Bool.and_comm

structure Follows (m : Machine) (i : Nat) (channel : ChannelId) (p : Prospect) : Prop where
  story : m.story i = p.events
  responses : m.responses i = p.fate.responses channel
  summary : ∀ nested s, .finished i nested s ∈ m.journal →
    ∃ now, p.fate.summary? now = some (nested, s)

theorem follows_of_shows (h : (m.strand i).Shows i channel request p)
    (hp : ∀ e ∈ p.events, e.isInner = true) : m.Follows i channel p := by
  obtain ⟨last, hevents, htail⟩ := h.exists_tail
  constructor
  . have hlast : last.filter Event.isInner = [] := by
      rw [List.filter_eq_nil_iff]
      intro e he
      simp [htail.outer e he]
    rw [story_eq]
    rw [hevents]
    rw [List.filter_cons_of_neg (by simp [Event.isInner])]
    rw [List.filter_append]
    rw [hlast]
    rw [List.filter_eq_self.mpr hp]
    apply List.append_nil
  . have hperm := htail.responses
    rw [← sends_of_strand hevents hp] at hperm
    apply Fate.eq_responses_of_perm
    apply Multiset.coe_eq_coe.mp hperm
  . intro nested s hmem
    apply htail.summary
    apply finished_mem_last hevents hp hmem

end Machine
end PageDispatch
