import PageDispatch.Deferral

/-!
This module contains the verification that a deferral hands over exactly once: in whatever order
its two ends are used, the continuation runs as soon as both of them were, with what the resumer
was used for first.
-/

namespace PageDispatch

/-- What can be done to one of the two ends of a deferral. -/
inductive Handling (κ : Type) where
  | register (continuation : κ)
  | dropPending
  | use (resumption : Resumption)
  | dropResumer

namespace Handling

variable {κ : Type}

/-- The continuation that a handling of the pending end leaves, if it leaves one. -/
def registers? : Handling κ → Option (Option κ)
  | register continuation => some (some continuation)
  | dropPending => some none
  | use _ | dropResumer => none

/--
What a handling of the resumer gives to the pending end: to go on, with or without objects, if it is
given no outcome, and otherwise just what it is given.
-/
def resolves? : Handling κ → Option Resolved
  | use .resume => some (.ok ⟨.consumed [] false, none⟩)
  | use (.resumeWith objects) => some (.ok ⟨.consumed objects false, none⟩)
  | use (.resumeWithOutcome outcome) => some (.ok ⟨outcome, none⟩)
  | use (.resumeWithResponse outcome response) => some (.ok ⟨outcome, some response⟩)
  | use (.fail e) => some (.error (.failed e))
  | dropResumer => some (.error .abandoned)
  | register _ | dropPending => none

theorem resolves?_use (resumption : Resumption) :
    (use resumption : Handling κ).resolves? = some resumption.resolved := by
  cases resumption <;> rfl

/-- What runs, if this was done to the pending end and to the resumer. -/
def handedOver : Option (Option κ) → Option Resolved → List (κ × Resolved)
  | some (some continuation), some r => [(continuation, r)]
  | _, _ => []

end Handling

namespace DeferralEnds

variable {κ : Type}

def handle (d : DeferralEnds κ) : Handling κ → DeferralEnds κ × Option (κ × Resolved)
  | .register continuation => d.onResolve continuation
  | .dropPending => (d.dropPending, .none)
  | .use resumption => d.use resumption
  | .dropResumer => d.drop

/-- One more handling, after those that let `ran` run. -/
def handleNext (state : DeferralEnds κ × List (κ × Resolved)) (h : Handling κ) :
    DeferralEnds κ × List (κ × Resolved) :=
  ((state.1.handle h).1, state.2 ++ (state.1.handle h).2.toList)

/-- A fresh deferral after some handlings, and what ran in the course of them. -/
def handled (hs : List (Handling κ)) : DeferralEnds κ × List (κ × Resolved) :=
  hs.foldl handleNext (new, [])

/-- Where a deferral stands after its two ends were used. -/
def standing : Option (Option κ) → Option Resolved → DeferralEnds κ
  | .none, .none => new
  | .none, some r => ⟨.resolved r, true, false⟩
  | some .none, .none => ⟨.waiting, false, true⟩
  | some .none, some r => ⟨.resolved r, false, false⟩
  | some (some continuation), .none => ⟨.registered continuation, false, true⟩
  | some (some _), some _ => ⟨.done, false, false⟩

/-- Whatever is done to an end that is not held any more changes nothing. -/
theorem handleNext_standing (p : Option (Option κ)) (r : Option Resolved) (h : Handling κ) :
    handleNext (standing p r, Handling.handedOver p r) h
      =
    (standing (p.or h.registers?) (r.or h.resolves?),
      Handling.handedOver (p.or h.registers?) (r.or h.resolves?)) := by
  cases h with
  | register continuation => rcases p with _ | _ | _ <;> cases r <;> rfl
  | dropPending => rcases p with _ | _ | _ <;> cases r <;> rfl
  | use resumption =>
    rw [Handling.resolves?_use]
    rcases p with _ | _ | _ <;> cases r <;> rfl
  | dropResumer => rcases p with _ | _ | _ <;> cases r <;> rfl

/-- Only the first use of each end counts. -/
theorem handled_eq (hs : List (Handling κ)) :
    handled hs
      =
    (standing (hs.findSome? Handling.registers?) (hs.findSome? Handling.resolves?),
      Handling.handedOver (hs.findSome? Handling.registers?)
        (hs.findSome? Handling.resolves?)) := by
  suffices ∀ (p : Option (Option κ)) (r : Option Resolved),
      hs.foldl handleNext (standing p r, Handling.handedOver p r)
        =
      (standing (p.or (hs.findSome? Handling.registers?))
          (r.or (hs.findSome? Handling.resolves?)),
        Handling.handedOver (p.or (hs.findSome? Handling.registers?))
          (r.or (hs.findSome? Handling.resolves?))) from this .none .none
  induction hs with
  | nil => simp
  | cons h rest ih =>
    intro p r
    have hor : ∀ {α : Type} (f : Handling κ → Option α) (first : Option α),
        (first.or (f h)).or (rest.findSome? f) = first.or ((h :: rest).findSome? f) := by
      intro α f first
      rw [Option.or_assoc, List.findSome?_cons]
      cases f h <;> rfl
    rw [List.foldl_cons, handleNext_standing, ih, hor, hor]

/-- If both ends were used, what was registered has run with what was given, once. -/
theorem ran_of_both {hs : List (Handling κ)} {continuation : κ} {r : Resolved}
    (hp : hs.findSome? Handling.registers? = some (some continuation))
    (hr : hs.findSome? Handling.resolves? = some r) : (handled hs).2 = [(continuation, r)] := by
  rw [handled_eq, hp, hr]
  rfl

/-- Two histories in which each end is handled in the same way come to the same. -/
theorem handled_congr {hs hs' : List (Handling κ)}
    (hp : hs.filterMap Handling.registers? = hs'.filterMap Handling.registers?)
    (hr : hs.filterMap Handling.resolves? = hs'.filterMap Handling.resolves?) :
    handled hs = handled hs' := by
  rw [handled_eq, handled_eq, ← List.head?_filterMap, ← List.head?_filterMap, hp, hr,
    List.head?_filterMap, List.head?_filterMap]

/-- The drop of a resumer that was used or dropped before is no resolution. -/
theorem handled_dropResumer {before : List (Handling κ)} (after : List (Handling κ))
    (h : before.findSome? Handling.resolves? ≠ .none) :
    handled (before ++ .dropResumer :: after) = handled (before ++ after) := by
  obtain ⟨r, hr⟩ := Option.ne_none_iff_exists'.mp h
  rw [handled_eq, handled_eq]
  simp [List.findSome?_append, List.findSome?_cons, hr, Handling.registers?]

/--
However the two ends of a deferral are used: once a continuation was registered and the resumer was
used or dropped, the continuation has run, once and with what the resumer was used for. Until then
nothing has run, and nothing ever does if the pending end was dropped. That the resumer is dropped
after its use counts for nothing, and neither does which of the two sides came first.
-/
theorem hands_over_exactly_once (hs : List (Handling κ)) :
    (∀ continuation r, hs.findSome? Handling.registers? = some (some continuation) →
      hs.findSome? Handling.resolves? = some r → (handled hs).2 = [(continuation, r)]) ∧
    (hs.findSome? Handling.registers? = .none ∨ hs.findSome? Handling.resolves? = .none →
      (handled hs).2 = []) ∧
    (hs.findSome? Handling.registers? = some .none → (handled hs).2 = []) ∧
    (∀ before after, hs = before ++ .dropResumer :: after →
      before.findSome? Handling.resolves? ≠ .none → handled hs = handled (before ++ after)) ∧
    (∀ hs', hs.filterMap Handling.registers? = hs'.filterMap Handling.registers? →
      hs.filterMap Handling.resolves? = hs'.filterMap Handling.resolves? →
        handled hs = handled hs') := by
  refine ⟨?_, ?_, ?_, ?_, ?_⟩
  . intro continuation r hp hr
    exact ran_of_both hp hr
  . intro hone
    rw [handled_eq]
    cases hone with
    | inl hp => rw [hp]; rfl
    | inr hr =>
      rw [hr]
      rcases hs.findSome? Handling.registers? with _ | _ | _ <;> rfl
  . intro hp
    rw [handled_eq, hp]
    cases hs.findSome? Handling.resolves? <;> rfl
  . rintro before after rfl h
    exact handled_dropResumer after h
  . intro hs' hp hr
    exact handled_congr hp hr

/-- A resumer that rejects before anybody waits, and is dropped when it has done so. -/
def rejectedEarly : List (Handling String) :=
  [.use (.resumeWithOutcome .rejected), .dropResumer, .register "go on"]

/-- A resumer that answers somebody who waits, and has written something. -/
def answeredLate : List (Handling String) :=
  [.register "go on",
    .use (.resumeWithResponse (.respondWith .ok .none) (Accumulator.empty.setStatus .notFound)),
    .dropResumer]

def failedLate : List (Handling String) :=
  [.register "go on", .use (.fail (.of "broken")), .dropResumer]

theorem handled_of_rejectedEarly :
    (handled rejectedEarly).2 = [("go on", .ok ⟨.rejected, .none⟩)] ∧
    (handled (rejectedEarly.take 2)).2 = [] ∧
    handled rejectedEarly = handled [.use (.resumeWithOutcome .rejected), .register "go on"] ∧
    handled rejectedEarly
      = handled [.register "go on", .use (.resumeWithOutcome .rejected), .dropResumer] ∧
    (handled answeredLate).2
      = [("go on", .ok ⟨.respondWith .ok .none, some (Accumulator.empty.setStatus .notFound)⟩)] ∧
    (handled failedLate).2 = [("go on", .error (.failed (.of "broken")))] ∧
    (handled [.use .resume, .register "go on"]).2
      = [("go on", .ok ⟨.consumed [] false, .none⟩)] ∧
    (handled [.use (.resumeWith [.flag true]), .register "go on"]).2
      = [("go on", .ok ⟨.consumed [.flag true] false, .none⟩)] := by
  obtain ⟨hboth, -, -, hdrop, horder⟩ := hands_over_exactly_once rejectedEarly
  refine ⟨hboth _ _ rfl rfl, ?_, ?_, ?_, ?_, ?_, ?_, ?_⟩
  . exact (hands_over_exactly_once (rejectedEarly.take 2)).2.1 (.inl rfl)
  . exact hdrop [_] [_] rfl nofun
  . exact horder _ rfl rfl
  . exact (hands_over_exactly_once answeredLate).1 _ _ rfl rfl
  . exact (hands_over_exactly_once failedLate).1 _ _ rfl rfl
  . exact (hands_over_exactly_once _).1 _ _ rfl rfl
  . exact (hands_over_exactly_once _).1 _ _ rfl rfl

end DeferralEnds
end PageDispatch
