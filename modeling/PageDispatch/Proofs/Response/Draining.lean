import Mathlib.Data.Nat.Find
import PageDispatch.Body

/-!
This module contains the verification that a writer is drained piece by piece: what is asked, called
and handed on, in which order, and where it ends.
-/

namespace PageDispatch

/-- What is done, in order, while a writer is drained. -/
inductive DrainEvent where
  | asked (isOpen : Bool)
  | called (call : WriterCall)
  /-- A piece is handed on, and the sink takes it or fails. -/
  | handed (piece : Bytes) (result : Except String Unit)

namespace DrainEvent

@[simp]
def answer? : DrainEvent → Option Bool
  | asked isOpen => some isOpen
  | called _ | handed _ _ => none

@[simp]
def call? : DrainEvent → Option WriterCall
  | called call => some call
  | asked _ | handed _ _ => none

@[simp]
def piece? : DrainEvent → Option Bytes
  | handed piece _ => some piece
  | asked _ | called _ => none

@[simp]
def taken? : DrainEvent → Option Bytes
  | handed piece (.ok ()) => some piece
  | handed _ (.error _) | asked _ | called _ => none

end DrainEvent

namespace WriterCall

/-- The call of a writer that has nothing more to say. -/
def finish : WriterCall := ⟨[], false, .ok .done⟩

def succeeded (c : WriterCall) : Bool := c.result.isOk

end WriterCall

/-- What a status says about the whole, unless more is to follow. -/
@[simp]
def WriteStatus.verdict? : WriteStatus → Option (Except String Bool)
  | done => some (.ok true)
  | notDone | deferred => none

namespace BodyWriter

section Rounds

/--
One round of draining: the receiver is asked, the writer called, and its piece handed on. It is the
last one if it comes to a verdict.
-/
def round (isOpen : Bool) (sink : Bytes → Except String Unit) (call : WriterCall) :
    List DrainEvent × Option (Except String Bool) :=
  if isOpen then
    match call.result with
    | .error e => ([.asked true, .called call], some (.error e))
    | .ok status =>
      if call.data.isEmpty then ([.asked true, .called call], status.verdict?)
      else
        match sink call.data with
        | .error e => ([.asked true, .called call, .handed call.data (.error e)], some (.error e))
        | .ok () => ([.asked true, .called call, .handed call.data (.ok ())], status.verdict?)
  else ([.asked false], some (.ok false))

/--
Draining with a record of all that is done. The receiver answers by how often it was asked before,
and the sink by how many pieces it was handed before.
-/
def narrate (isOpen : Nat → Bool) (sink : Nat → Bytes → Except String Unit)
    (past : List DrainEvent) (writer : BodyWriter) : List DrainEvent × Except String Bool :=
  let (events, verdict) := round (isOpen (past.filterMap DrainEvent.answer?).length)
    (sink (past.filterMap DrainEvent.piece?).length) (writer.headD .finish)
  match verdict, writer with
  | some result, _ => (past ++ events, result)
  | none, [] => (past ++ events, .ok true)
  | none, _ :: rest => narrate isOpen sink (past ++ events) rest

variable (isOpen : Nat → Bool) (sink : Nat → Bytes → Except String Unit) (w : BodyWriter)

/-- What a writer answers when it was called `k` times before. -/
def answer (w : BodyWriter) (k : Nat) : WriterCall := w[k]?.getD .finish

/-- The non-empty pieces of those of the first `k` calls that succeed. -/
def pieces (w : BodyWriter) (k : Nat) : List Bytes :=
  ((((List.range k).map w.answer).filter (·.succeeded)).map (·.data)).filter (!·.isEmpty)

def roundAt (k : Nat) : List DrainEvent × Option (Except String Bool) :=
  round (isOpen k) (sink (w.pieces k).length) (w.answer k)

/-- What is handed on after a call: its piece, unless it is empty or the call failed. -/
def handing (k : Nat) : List DrainEvent :=
  if (w.answer k).succeeded && !(w.answer k).data.isEmpty then
    [.handed (w.answer k).data (sink (w.pieces k).length (w.answer k).data)]
  else []

/-- Whether all goes well in a round: the receiver is open, and neither writer nor sink fails. -/
structure GoesWell (k : Nat) : Prop where
  isOpen : isOpen k = true
  succeeded : (w.answer k).succeeded = true
  taken : (w.answer k).data = [] ∨ sink (w.pieces k).length (w.answer k).data = .ok ()

/-- Whether all goes well in a round, and more is to follow. -/
def GoesOn (k : Nat) : Prop := GoesWell isOpen sink w k ∧ (w.answer k).result ≠ .ok .done

/-- Whether the writer fails in a call, or the sink with its piece. -/
def Fails (k : Nat) (e : String) : Prop :=
  (w.answer k).result = .error e ∨
  (w.answer k).succeeded = true ∧ (w.answer k).data ≠ [] ∧
    sink (w.pieces k).length (w.answer k).data = .error e

/-- What ends a draining in a round. -/
inductive Verdict (k : Nat) : Except String Bool → Prop
  | closed (h : isOpen k = false) : Verdict k (.ok false)
  | failed (h : isOpen k = true) {e : String} (he : w.Fails sink k e) : Verdict k (.error e)
  | done (h : GoesWell isOpen sink w k) (hdone : (w.answer k).result = .ok .done) :
    Verdict k (.ok true)

variable {isOpen sink w} {k : Nat}

theorem fst_roundAt (k : Nat) : (roundAt isOpen sink w k).1
      =
    if isOpen k then [.asked true, .called (w.answer k)] ++ handing sink w k
    else [.asked false] := by
  unfold roundAt round handing WriterCall.succeeded
  grind [Except.toBool]

theorem snd_roundAt_of_closed (h : isOpen k = false) :
    (roundAt isOpen sink w k).2 = some (.ok false) := by
  unfold roundAt round
  rw [h]
  rfl

theorem snd_roundAt_of_fails {e : String} (h : isOpen k = true) (he : w.Fails sink k e) :
    (roundAt isOpen sink w k).2 = some (.error e) := by
  unfold roundAt round
  rw [if_pos h]
  obtain he | ⟨hsucceeded, hdata, he⟩ := he
  . rw [he]
  . unfold WriterCall.succeeded at hsucceeded
    split
    . next heq =>
      rw [heq] at hsucceeded
      cases hsucceeded
    . rw [if_neg (by simpa using hdata), he]

theorem snd_roundAt_of_goesWell {status : WriteStatus} (h : GoesWell isOpen sink w k)
    (hstatus : (w.answer k).result = .ok status) :
    (roundAt isOpen sink w k).2 = status.verdict? := by
  unfold roundAt round
  rw [if_pos h.isOpen, hstatus]
  dsimp only
  split
  . rfl
  . next hdata =>
    obtain hempty | htaken := h.taken
    . rw [hempty] at hdata
      contradiction
    . rw [htaken]

theorem goesWell_or_fails (sink : Nat → Bytes → Except String Unit) (h : isOpen k = true) :
    (∃ status, (w.answer k).result = .ok status ∧ GoesWell isOpen sink w k) ∨
    ∃ e, w.Fails sink k e := by
  cases hresult : (w.answer k).result with
  | error e => exact .inr ⟨e, .inl hresult⟩
  | ok status =>
    have hsucceeded : (w.answer k).succeeded = true := by
      rw [WriterCall.succeeded, hresult]
      rfl
    cases hsink : sink (w.pieces k).length (w.answer k).data with
    | ok => exact .inl ⟨status, rfl, h, hsucceeded, .inr hsink⟩
    | error e =>
      cases Decidable.em ((w.answer k).data = []) with
      | inl hempty => exact .inl ⟨status, rfl, h, hsucceeded, .inl hempty⟩
      | inr hdata => exact .inr ⟨e, .inr ⟨hsucceeded, hdata, hsink⟩⟩

theorem snd_roundAt_of_goesOn (h : GoesOn isOpen sink w k) :
    (roundAt isOpen sink w k).2 = none := by
  obtain ⟨hwell, hdone⟩ := h
  cases hresult : (w.answer k).result with
  | error e =>
    have hsucceeded := hwell.succeeded
    rw [WriterCall.succeeded, hresult] at hsucceeded
    cases hsucceeded
  | ok status =>
    rw [snd_roundAt_of_goesWell hwell hresult]
    cases status with
    | done => contradiction
    | notDone => rfl
    | deferred => rfl

theorem snd_roundAt_of_verdict {r : Except String Bool} (h : Verdict isOpen sink w k r) :
    (roundAt isOpen sink w k).2 = some r := by
  cases h with
  | closed h => exact snd_roundAt_of_closed h
  | failed h he => exact snd_roundAt_of_fails h he
  | done h hdone => exact snd_roundAt_of_goesWell h hdone

theorem goesOn_or_verdict (isOpen : Nat → Bool) (sink : Nat → Bytes → Except String Unit)
    (w : BodyWriter) (k : Nat) :
    GoesOn isOpen sink w k ∨ ∃ r, Verdict isOpen sink w k r := by
  cases hopen : isOpen k with
  | false => exact .inr ⟨_, .closed hopen⟩
  | true =>
    obtain ⟨status, hstatus, hwell⟩ | ⟨e, he⟩ := goesWell_or_fails sink hopen
    . cases status with
      | done => exact .inr ⟨_, .done hwell hstatus⟩
      | notDone => exact .inl ⟨hwell, by rw [hstatus]; nofun⟩
      | deferred => exact .inl ⟨hwell, by rw [hstatus]; nofun⟩
    . exact .inr ⟨_, .failed hopen he⟩

end Rounds

section Record

variable {isOpen : Nat → Bool} {sink : Nat → Bytes → Except String Unit}

/-- Whether a record is one of rounds that went well: a question for each call, and no refusal. -/
structure Unspoilt (past : List DrainEvent) : Prop where
  calls : (past.filterMap DrainEvent.call?).length = (past.filterMap DrainEvent.answer?).length
  taken : past.filterMap DrainEvent.taken? = past.filterMap DrainEvent.piece?

theorem unspoilt_nil : Unspoilt [] := ⟨rfl, rfl⟩

/-- One round in the draining of a writer, as the record has it. -/
theorem go_eq_round (calls : Nat) (chunks : List Bytes) (w : BodyWriter) :
    drain.go isOpen sink calls chunks w
      =
    let (events, verdict) := round (isOpen calls) (sink chunks.length) (w.headD .finish)
    let taken := (events.filterMap DrainEvent.taken?).reverse ++ chunks
    match verdict, w with
    | some r, _ => ⟨taken.reverse, calls + (events.filterMap DrainEvent.call?).length, r⟩
    | none, [] => ⟨taken.reverse, calls + 1, .ok true⟩
    | none, _ :: rest => drain.go isOpen sink (calls + 1) taken rest := by
  cases w with
  | nil =>
    cases hopen : isOpen calls <;>
      simp [drain.go, round, List.filterMap_cons, hopen, WriterCall.finish]
  | cons call rest =>
    cases hopen : isOpen calls with
    | false => simp [drain.go, round, List.filterMap_cons, hopen]
    | true =>
      cases hresult : call.result with
      | error e => simp [drain.go, round, List.filterMap_cons, hopen, hresult]
      | ok status =>
        cases hdata : call.data.isEmpty with
        | true =>
          cases status <;> simp [drain.go, round, List.filterMap_cons, hopen, hresult, hdata]
        | false =>
          cases hsink : sink chunks.length call.data <;> cases status <;>
            simp [drain.go, round, List.filterMap_cons, hopen, hresult, hdata, hsink]

/-- A round that goes on has one question and one call, and what is handed on is taken. -/
theorem counts_of_goes_on {isOpen : Bool} {sink : Bytes → Except String Unit} {call : WriterCall}
    (h : (round isOpen sink call).2 = none) :
    ((round isOpen sink call).1.filterMap DrainEvent.answer?).length = 1 ∧
    ((round isOpen sink call).1.filterMap DrainEvent.call?).length = 1 ∧
    (round isOpen sink call).1.filterMap DrainEvent.taken?
      = (round isOpen sink call).1.filterMap DrainEvent.piece? := by
  unfold round at h ⊢
  split
  . split
    . simp_all
    . split
      . simp [List.filterMap_cons]
      . split
        . simp_all
        . simp [List.filterMap_cons]
  . simp_all

theorem Unspoilt.append_round {past : List DrainEvent} {isOpen : Bool}
    {sink : Bytes → Except String Unit} {call : WriterCall} (h : Unspoilt past)
    (hround : (round isOpen sink call).2 = none) :
    Unspoilt (past ++ (round isOpen sink call).1) := by
  obtain ⟨hanswers, hcalls, htaken⟩ := counts_of_goes_on hround
  constructor
  case calls => simp only [List.filterMap_append, List.length_append, h.calls, hanswers, hcalls]
  case taken => rw [List.filterMap_append, List.filterMap_append, h.taken, htaken]

section

variable {past : List DrainEvent} (h : Unspoilt past) (events : List DrainEvent)
include h

theorem Unspoilt.length_calls :
    (past.filterMap DrainEvent.answer?).length + (events.filterMap DrainEvent.call?).length
      =
    ((past ++ events).filterMap DrainEvent.call?).length := by
  rw [List.filterMap_append, List.length_append, h.calls]

theorem Unspoilt.reverse_taken :
    ((events.filterMap DrainEvent.taken?).reverse
        ++ (past.filterMap DrainEvent.piece?).reverse).reverse
      =
    (past ++ events).filterMap DrainEvent.taken? := by
  rw [List.filterMap_append, List.reverse_append, List.reverse_reverse, List.reverse_reverse,
    h.taken]

end

/-- Draining comes to what its record says. -/
theorem go_eq_narrate (w : BodyWriter) {past : List DrainEvent} (h : Unspoilt past) :
    drain.go isOpen sink (past.filterMap DrainEvent.answer?).length
        (past.filterMap DrainEvent.piece?).reverse w
      =
    ⟨(narrate isOpen sink past w).1.filterMap DrainEvent.taken?,
      ((narrate isOpen sink past w).1.filterMap DrainEvent.call?).length,
      (narrate isOpen sink past w).2⟩ := by
  induction w generalizing past with
  | nil =>
    rw [go_eq_round, narrate, List.length_reverse]
    generalize hround : round (isOpen (past.filterMap DrainEvent.answer?).length)
      (sink (past.filterMap DrainEvent.piece?).length) ([].headD .finish) = events
    obtain ⟨events, _ | r⟩ := events
    . have hcalls := (counts_of_goes_on (congrArg Prod.snd hround)).2.1
      rw [hround] at hcalls
      dsimp only at hcalls ⊢
      rw [h.reverse_taken, ← hcalls, h.length_calls]
    . dsimp only
      rw [h.reverse_taken, h.length_calls]
  | cons call rest ih =>
    rw [go_eq_round, narrate, List.length_reverse]
    dsimp only [List.headD_cons]
    generalize hround : round (isOpen (past.filterMap DrainEvent.answer?).length)
      (sink (past.filterMap DrainEvent.piece?).length) call = events
    obtain ⟨events, _ | r⟩ := events
    . have hgoes := congrArg Prod.snd hround
      have hafter := ih (h.append_round hgoes)
      obtain ⟨hanswers, -, htaken⟩ := counts_of_goes_on hgoes
      rw [hround] at hafter hanswers htaken
      rw [List.filterMap_append, List.filterMap_append, List.length_append, List.reverse_append,
        hanswers, ← htaken] at hafter
      exact hafter
    . dsimp only
      rw [h.reverse_taken, h.length_calls]

theorem drain_eq_narrate (isOpen : Nat → Bool) (sink : Nat → Bytes → Except String Unit)
    (w : BodyWriter) : drain isOpen sink w
      =
    ⟨(narrate isOpen sink [] w).1.filterMap DrainEvent.taken?,
      ((narrate isOpen sink [] w).1.filterMap DrainEvent.call?).length,
      (narrate isOpen sink [] w).2⟩ :=
  go_eq_narrate w unspoilt_nil

end Record

section Course

variable (isOpen : Nat → Bool) (sink : Nat → Bytes → Except String Unit) (w : BodyWriter)

/-- A question, a call, and what is handed on after it. -/
def calling (k : Nat) : List DrainEvent := [.asked true, .called (w.answer k)] ++ handing sink w k

/-- The first `n` calls, with what goes with them. -/
def course (n : Nat) : List DrainEvent := (List.range n).flatMap (calling sink w)

/-- What follows the last call: one more question, if the receiver was closed. -/
def lastQuestion : Except String Bool → List DrainEvent
  | .ok false => [.asked false]
  | .ok true | .error _ => []

variable {isOpen sink w} {k : Nat}

theorem course_succ (k : Nat) : course sink w (k + 1) = course sink w k ++ calling sink w k := by
  rw [course, List.range_succ, List.flatMap_append, List.flatMap_singleton, ← course]

theorem fst_roundAt_of_open (h : isOpen k = true) :
    (roundAt isOpen sink w k).1 = calling sink w k := by
  rw [fst_roundAt, if_pos h, calling]

@[simp]
theorem answers_calling (k : Nat) : (calling sink w k).filterMap DrainEvent.answer? = [true] := by
  unfold calling handing
  split <;> rfl

@[simp]
theorem calls_calling (k : Nat) :
    (calling sink w k).filterMap DrainEvent.call? = [w.answer k] := by
  unfold calling handing
  split <;> rfl

@[simp]
theorem pieces_calling (k : Nat) : (calling sink w k).filterMap DrainEvent.piece?
      =
    if (w.answer k).succeeded && !(w.answer k).data.isEmpty then [(w.answer k).data] else [] := by
  unfold calling handing
  split <;> rfl

theorem answers_course (n : Nat) :
    (course sink w n).filterMap DrainEvent.answer? = List.replicate n true := by
  induction n with
  | zero => rfl
  | succ n ih =>
    rw [course_succ, List.filterMap_append, ih, answers_calling, List.replicate_succ']

theorem calls_course (n : Nat) :
    (course sink w n).filterMap DrainEvent.call? = (List.range n).map w.answer := by
  induction n with
  | zero => rfl
  | succ n ih =>
    rw [course_succ, List.filterMap_append, ih, calls_calling, List.range_succ, List.map_append,
      List.map_singleton]

theorem pieces_course (sink : Nat → Bytes → Except String Unit) (w : BodyWriter) (n : Nat) :
    (course sink w n).filterMap DrainEvent.piece? = w.pieces n := by
  induction n with
  | zero => rfl
  | succ n ih =>
    rw [course_succ, List.filterMap_append, ih, pieces_calling, pieces, pieces, List.range_succ,
      List.map_append, List.map_singleton, List.filter_append, List.map_append, List.filter_append]
    congr 1
    cases hsucceeded : (w.answer n).succeeded <;> cases hdata : (w.answer n).data.isEmpty <;>
      simp [hsucceeded, hdata]

theorem narrate_of_none {past events : List DrainEvent} {call : WriterCall} {rest : BodyWriter}
    (h : round (isOpen (past.filterMap DrainEvent.answer?).length)
      (sink (past.filterMap DrainEvent.piece?).length) call = (events, none)) :
    narrate isOpen sink past (call :: rest) = narrate isOpen sink (past ++ events) rest := by
  rw [narrate, List.headD_cons, h]

theorem narrate_of_some {past events : List DrainEvent} {r : Except String Bool}
    (h : round (isOpen (past.filterMap DrainEvent.answer?).length)
      (sink (past.filterMap DrainEvent.piece?).length) (w.headD .finish) = (events, some r)) :
    narrate isOpen sink past w = (past ++ events, r) := by
  rw [narrate, h]

theorem answer_of_le (h : w.length ≤ k) : w.answer k = .finish := by
  rw [answer, List.getElem?_eq_none h]
  rfl

theorem headD_drop (w : BodyWriter) (k : Nat) : (w.drop k).headD .finish = w.answer k := by
  rw [List.headD_eq_head?_getD, List.head?_drop, answer]

theorem lt_length_of_goesOn (h : GoesOn isOpen sink w k) : k < w.length := by
  by_contra hk
  apply h.2
  rw [answer_of_le (by omega)]
  rfl

/-- After `k` calls it is the round of that number. -/
theorem round_course (isOpen : Nat → Bool) (sink : Nat → Bytes → Except String Unit)
    (w : BodyWriter) (k : Nat) :
    round (isOpen ((course sink w k).filterMap DrainEvent.answer?).length)
        (sink ((course sink w k).filterMap DrainEvent.piece?).length) ((w.drop k).headD .finish)
      =
    roundAt isOpen sink w k := by
  rw [answers_course, List.length_replicate, pieces_course, headD_drop, roundAt]

theorem narrate_eq_course (hon : ∀ i < k, GoesOn isOpen sink w i) :
    narrate isOpen sink [] w = narrate isOpen sink (course sink w k) (w.drop k) := by
  induction k with
  | zero => rfl
  | succ k ih =>
    have hk := hon k (by omega)
    have hround := round_course isOpen sink w k
    have hat : roundAt isOpen sink w k = (calling sink w k, none) :=
      Prod.ext (fst_roundAt_of_open hk.1.isOpen) (snd_roundAt_of_goesOn hk)
    rw [List.drop_eq_getElem_cons (lt_length_of_goesOn hk), List.headD_cons, hat] at hround
    rw [ih fun i hi => hon i (by omega), List.drop_eq_getElem_cons (lt_length_of_goesOn hk),
      narrate_of_none hround, course_succ]

/-- The number of calls made after round `k`, if it is the last one. -/
def callsUntil (isOpen : Nat → Bool) (k : Nat) : Nat := if isOpen k then k + 1 else k

theorem course_append_roundAt {r : Except String Bool} (h : Verdict isOpen sink w k r) :
    course sink w k ++ (roundAt isOpen sink w k).1
      =
    course sink w (callsUntil isOpen k) ++ lastQuestion r := by
  unfold callsUntil
  cases h with
  | closed h =>
    rw [fst_roundAt, h]
    rfl
  | failed h =>
    rw [fst_roundAt_of_open h, if_pos h, course_succ]
    exact (List.append_nil _).symm
  | done h =>
    rw [fst_roundAt_of_open h.isOpen, if_pos h.isOpen, course_succ]
    exact (List.append_nil _).symm

theorem narrate_eq (hon : ∀ i < k, GoesOn isOpen sink w i) {r : Except String Bool}
    (h : Verdict isOpen sink w k r) :
    narrate isOpen sink [] w = (course sink w (callsUntil isOpen k) ++ lastQuestion r, r) := by
  have hat : roundAt isOpen sink w k = ((roundAt isOpen sink w k).1, some r) :=
    Prod.ext rfl (snd_roundAt_of_verdict h)
  rw [narrate_eq_course hon, narrate_of_some ((round_course isOpen sink w k).trans hat),
    course_append_roundAt h]

/-- The calls of a writer end, and draining with them. -/
theorem exists_verdict (isOpen : Nat → Bool) (sink : Nat → Bytes → Except String Unit)
    (w : BodyWriter) :
    ∃ k, (∀ i < k, GoesOn isOpen sink w i) ∧ ∃ r, Verdict isOpen sink w k r := by
  classical
  have hex : ∃ k, ¬GoesOn isOpen sink w k :=
    ⟨w.length, fun h => Nat.lt_irrefl _ (lt_length_of_goesOn h)⟩
  refine ⟨Nat.find hex, fun i hi => ?_, ?_⟩
  . exact Decidable.not_not.mp (Nat.find_min hex hi)
  . exact (goesOn_or_verdict isOpen sink w _).resolve_left (Nat.find_spec hex)

end Course

section Delivery

variable {isOpen : Nat → Bool} {sink : Nat → Bytes → Except String Unit} {w w' : BodyWriter}
variable {k : Nat}

theorem filterMap_lastQuestion {β : Type} {f : DrainEvent → Option β} (hf : f (.asked false) = none)
    (r : Except String Bool) : (lastQuestion r).filterMap f = [] := by
  obtain _ | _ | _ := r
  . rfl
  . exact List.filterMap_cons_none hf
  . rfl

/--
What comes of a draining, as the record `log` has it. The result is that of the first verdict: the
receiver is found closed, the writer or the sink fails, or the writer is done.
-/
structure Delivers (isOpen : Nat → Bool) (sink : Nat → Bytes → Except String Unit) (w : BodyWriter)
    (log : List DrainEvent) (d : Drained) : Prop where
  /-- There is one question before each call, and no more than one after the last call. -/
  log_eq : log = course sink w d.calls ++ lastQuestion d.result
  answers : log.filterMap DrainEvent.answer?
      =
    (List.range (log.filterMap DrainEvent.answer?).length).map isOpen
  handed : log.filterMap DrainEvent.piece? = w.pieces d.calls
  taken : log.filterMap DrainEvent.taken? = d.chunks
  failed_last : ∀ k < d.calls, (w.answer k).succeeded = false → d.calls = k + 1
  result_iff : ∀ r, d.result = r
      ↔
    ∃ k, (∀ i < k, GoesOn isOpen sink w i) ∧ Verdict isOpen sink w k r
  /-- What a writer would answer later makes no difference. -/
  later : ∀ w' : BodyWriter, (∀ i < d.calls, w'.answer i = w.answer i) → drain isOpen sink w' = d

theorem pieces_congr (h : ∀ i < k, w'.answer i = w.answer i) : w'.pieces k = w.pieces k := by
  have hmap : (List.range k).map w'.answer = (List.range k).map w.answer :=
    List.map_congr_left fun i hi => h i (List.mem_range.mp hi)
  rw [pieces, hmap, pieces]

theorem course_congr (h : ∀ i < k, w'.answer i = w.answer i) :
    course sink w' k = course sink w k := by
  induction k with
  | zero => rfl
  | succ k ih =>
    have hbefore : ∀ i < k, w'.answer i = w.answer i := fun i hi => h i (by omega)
    rw [course_succ, course_succ, ih hbefore, calling, calling, handing, handing,
      pieces_congr hbefore, h k (by omega)]

theorem GoesWell.congr (h : ∀ i ≤ k, w'.answer i = w.answer i)
    (hwell : GoesWell isOpen sink w k) : GoesWell isOpen sink w' k := by
  have hpieces := pieces_congr fun i (hi : i < k) => h i (by omega)
  obtain ⟨hopen, hsucceeded, htaken⟩ := hwell
  rw [← h k (by omega)] at hsucceeded htaken
  rw [← hpieces] at htaken
  exact ⟨hopen, hsucceeded, htaken⟩

theorem GoesOn.congr (h : ∀ i ≤ k, w'.answer i = w.answer i) (hon : GoesOn isOpen sink w k) :
    GoesOn isOpen sink w' k :=
  ⟨hon.1.congr h, by rw [h k (by omega)]; exact hon.2⟩

theorem Verdict.congr {r : Except String Bool}
    (h : ∀ i < callsUntil isOpen k, w'.answer i = w.answer i) (hr : Verdict isOpen sink w k r) :
    Verdict isOpen sink w' k r := by
  unfold callsUntil at h
  cases hr with
  | closed hopen => exact .closed hopen
  | failed hopen he =>
    rw [if_pos hopen] at h
    have hpieces := pieces_congr fun i (hi : i < k) => h i (by omega)
    unfold Fails at he
    rw [← h k (by omega), ← hpieces] at he
    exact .failed hopen he
  | done hwell hdone =>
    rw [if_pos hwell.isOpen] at h
    exact .done (hwell.congr fun i hi => h i (by omega)) (by rw [h k (by omega), hdone])

/-- Draining comes to the first verdict. -/
theorem drain_eq {r : Except String Bool} (hon : ∀ i < k, GoesOn isOpen sink w i)
    (h : Verdict isOpen sink w k r) : drain isOpen sink w
      =
    ⟨(course sink w (callsUntil isOpen k)).filterMap DrainEvent.taken?,
      callsUntil isOpen k, r⟩ := by
  rw [drain_eq_narrate, narrate_eq hon h, List.filterMap_append, List.filterMap_append,
    calls_course, filterMap_lastQuestion rfl, filterMap_lastQuestion rfl, List.append_nil,
    List.append_nil, List.length_map, List.length_range]

theorem callsUntil_bounds (isOpen : Nat → Bool) (k : Nat) :
    k ≤ callsUntil isOpen k ∧ callsUntil isOpen k ≤ k + 1 := by
  unfold callsUntil
  split <;> omega

/-- The receiver is asked once in every round. -/
theorem answers_eq {r : Except String Bool} (hon : ∀ i < k, GoesOn isOpen sink w i)
    (h : Verdict isOpen sink w k r) :
    (course sink w (callsUntil isOpen k) ++ lastQuestion r).filterMap DrainEvent.answer?
      =
    (List.range (k + 1)).map isOpen := by
  have hbefore : (List.range k).map isOpen = List.replicate (List.range k).length true :=
    List.map_eq_replicate_iff.mpr fun i hi => (hon i (List.mem_range.mp hi)).1.isOpen
  rw [List.length_range] at hbefore
  rw [← course_append_roundAt h, List.filterMap_append, answers_course, List.range_succ,
    List.map_append, hbefore, List.map_singleton]
  congr 1
  cases hopen : isOpen k with
  | false =>
    rw [fst_roundAt, hopen]
    rfl
  | true => rw [fst_roundAt_of_open hopen, answers_calling]

theorem delivers (isOpen : Nat → Bool) (sink : Nat → Bytes → Except String Unit) (w : BodyWriter) :
    Delivers isOpen sink w (narrate isOpen sink [] w).1 (drain isOpen sink w) := by
  obtain ⟨k, hon, r, hr⟩ := exists_verdict isOpen sink w
  have hdrain := drain_eq hon hr
  have hbounds := callsUntil_bounds isOpen k
  rw [narrate_eq hon hr, hdrain]
  constructor
  case log_eq => rfl
  case answers => rw [answers_eq hon hr, List.length_map, List.length_range]
  case handed =>
    rw [List.filterMap_append, pieces_course, filterMap_lastQuestion rfl, List.append_nil]
  case taken => rw [List.filterMap_append, filterMap_lastQuestion rfl, List.append_nil]
  case failed_last =>
    dsimp only
    intro i hi hfailed
    have hwell : ¬i < k := fun hlt => by
      rw [(hon i hlt).1.succeeded] at hfailed
      contradiction
    omega
  case result_iff =>
    intro r'
    constructor
    . rintro rfl
      exact ⟨k, hon, hr⟩
    . rintro ⟨k', hon', hr'⟩
      rw [← hdrain, drain_eq hon' hr']
  case later =>
    intro w' h
    have hon' : ∀ i < k, GoesOn isOpen sink w' i := fun i hi =>
      (hon i hi).congr fun j hj => h j (show j < callsUntil isOpen k by omega)
    rw [drain_eq hon' (hr.congr h), course_congr h]

theorem taken_course (hsink : ∀ n piece, sink n piece = .ok ()) (n : Nat) :
    (course sink w n).filterMap DrainEvent.taken? = w.pieces n := by
  have htaken : ∀ k, (calling sink w k).filterMap DrainEvent.taken?
      = (calling sink w k).filterMap DrainEvent.piece? := by
    intro k
    unfold calling handing
    rw [hsink]
    split <;> rfl
  rw [← pieces_course sink, course, List.filterMap_flatMap, List.filterMap_flatMap]
  simp only [htaken]

/-- A sink that takes all of it gets the pieces of all successful calls. -/
theorem chunks_drain (hsink : ∀ n piece, sink n piece = .ok ()) :
    (drain isOpen sink w).chunks = w.pieces (drain isOpen sink w).calls := by
  have h := delivers isOpen sink w
  rw [← h.taken, h.log_eq, List.filterMap_append, taken_course hsink, filterMap_lastQuestion rfl,
    List.append_nil]

end Delivery

end BodyWriter

end PageDispatch
