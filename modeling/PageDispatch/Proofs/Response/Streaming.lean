import PageDispatch.Channel
import PageDispatch.Proofs.Response.Draining

/-!
This module contains the verification that streamed bodies are delivered piece by piece, and that
responses are recorded as a whole or not at all. For the delivery the channel may be closed by
anybody at any question. What a channel records is said of `Channel.send`, where only the writer
closes it: a channel that someone else closes between the check on entry and the first question of
the drain is not expressible there.
-/

namespace PageDispatch

namespace Channel

variable {c : Channel} {r : Response}

/-- Whether exactly one response more is recorded. -/
structure Records (c : Channel) (r : Response) (sent : SentResponse) : Prop where
  ok : (c.send r).1 = .ok ()
  sent_eq : (c.send r).2.sent = c.sent ++ [sent]

structure Refuses (c : Channel) (r : Response) : Prop where
  error : ∃ e, (c.send r).1 = .error e
  sent_eq : (c.send r).2.sent = c.sent

/-- Whether a response is recorded as a whole or not at all. -/
structure AllOrNothing (c : Channel) (r : Response) : Prop where
  empty : r.body = .empty → ∀ sent, c.Records r sent
      ↔
    c.isOpen = true ∧ sent = ⟨r.status, r.headers, [], [], r.chunked⟩
  message : ∀ bytes, r.body = .message bytes → ∀ sent, c.Records r sent
      ↔
    c.isOpen = true ∧ sent = ⟨r.status, r.headers, bytes, [], r.chunked⟩
  streamed : ∀ w, r.body = .writer w → ∀ sent, c.Records r sent
      ↔
    c.isOpen = true ∧ (c.drain w).result = .ok true ∧
      sent = ⟨r.status, r.headers, (w.pieces (c.drain w).calls).flatten,
        w.pieces (c.drain w).calls, r.chunked⟩
  otherwise : (∃ sent, c.Records r sent) ∨ c.Refuses r

theorem records_iff {sent : SentResponse} : c.Records r sent ↔ c.record r = .ok sent := by
  constructor
  . intro ⟨hok, hsent⟩
    unfold send at hok hsent
    split at hok
    . next heq =>
      rw [heq] at hsent
      rw [heq, List.singleton_inj.mp (List.append_cancel_left hsent)]
    . cases hok
  . intro h
    constructor <;> rw [send, h]

theorem refuses_of_error {e : SendError} (h : c.record r = .error e) : c.Refuses r := by
  constructor
  case error => exact ⟨e, by rw [send, h]⟩
  case sent_eq => rw [send, h]

theorem record_writer {w : BodyWriter} (h : r.body = .writer w) (hopen : c.isOpen = true)
    (sent : SentResponse) : c.record r = .ok sent
      ↔
    (c.drain w).result = .ok true ∧
      sent = ⟨r.status, r.headers, (w.pieces (c.drain w).calls).flatten,
        w.pieces (c.drain w).calls, r.chunked⟩ := by
  have hchunks : (c.drain w).chunks = w.pieces (c.drain w).calls :=
    BodyWriter.chunks_drain fun _ _ => rfl
  unfold record
  rw [if_pos hopen, h]
  dsimp only
  split
  . next hresult => rw [← hchunks, Except.ok.injEq, hresult, eq_self, true_and, eq_comm]
  . next hresult => simp [hresult]
  . next hresult => simp [hresult]

theorem record_of_closed (h : c.isOpen = false) : c.record r = .error .closed := by
  rw [record, h]
  rfl

theorem sends_all_or_nothing (c : Channel) (r : Response) : c.AllOrNothing r := by
  cases hopen : c.isOpen with
  | false =>
    have hnever : ∀ sent, ¬c.Records r sent := fun sent h => by
      rw [records_iff, record_of_closed hopen] at h
      cases h
    constructor
    case empty => simp [hnever, hopen]
    case message => simp [hnever, hopen]
    case streamed => simp [hnever, hopen]
    case otherwise => exact .inr (refuses_of_error (record_of_closed hopen))
  | true =>
    constructor
    case empty =>
      intro h sent
      rw [records_iff, record, if_pos hopen, h, Except.ok.injEq, eq_comm, hopen]
      simp
    case message =>
      intro bytes h sent
      rw [records_iff, record, if_pos hopen, h, Except.ok.injEq, eq_comm, hopen]
      simp
    case streamed =>
      intro w h sent
      rw [records_iff, record_writer h hopen, hopen, eq_self, true_and]
    case otherwise =>
      cases hrecord : c.record r with
      | ok sent => exact .inl ⟨sent, records_iff.mpr hrecord⟩
      | error e => exact .inr (refuses_of_error hrecord)

/--
Whenever the receiver is closed, and whatever writer and sink do, each non-empty piece of a call
that succeeds is handed on once, in order, and the result says where it ended. A response is
recorded if the channel was open and its body came to its end, with all these pieces put together,
and otherwise nothing is. In which calls the channel is closed is up to the writer.
-/
theorem streams_piecewise_sends_whole (isOpen : Nat → Bool)
    (sink : Nat → Bytes → Except String Unit) (w : BodyWriter) :
    BodyWriter.Delivers isOpen sink w (BodyWriter.narrate isOpen sink [] w).1
      (BodyWriter.drain isOpen sink w) ∧
    ∀ (c : Channel) (r : Response), c.AllOrNothing r :=
  ⟨BodyWriter.delivers isOpen sink w, sends_all_or_nothing⟩

/-- A writer that pauses between its two pieces, and may close the channel with the first one. -/
def pausing (closes : Bool) : BodyWriter :=
  [⟨[112], closes, .ok .notDone⟩, ⟨[], false, .ok .deferred⟩, ⟨[113], false, .ok .done⟩]

def paused (closes : Bool) : Response := { Response.new .ok with body := .writer (pausing closes) }

/-- It may close the channel while it is drained, and then nothing is recorded. -/
theorem streams_of_pausing :
    (BodyWriter.drain (fun calls => calls != 2) (fun _ _ => .ok ()) (pausing false)).result
      = .ok false ∧
    Channel.new.Records (paused false) ⟨.ok, .empty, [112, 113], [[112], [113]], false⟩ ∧
    Channel.new.Refuses (paused true) := by
  refine ⟨?_, ?_, ?_⟩
  . have hdelivers := (streams_piecewise_sends_whole (fun calls => calls != 2) (fun _ _ => .ok ())
      (pausing false)).1
    refine (hdelivers.result_iff _).mpr ⟨2, ?_, .closed rfl⟩
    intro i hi
    match i, hi with
    | 0, _ => exact ⟨⟨rfl, rfl, .inr rfl⟩, nofun⟩
    | 1, _ => exact ⟨⟨rfl, rfl, .inl rfl⟩, nofun⟩
  . have hsends :=
      (streams_piecewise_sends_whole (fun _ => true) (fun _ _ => .ok ()) []).2 .new (paused false)
    exact (hsends.streamed _ rfl _).mpr ⟨rfl, rfl, rfl⟩
  . have hsends :=
      (streams_piecewise_sends_whole (fun _ => true) (fun _ _ => .ok ()) []).2 .new (paused true)
    refine hsends.otherwise.resolve_left fun ⟨sent, h⟩ => ?_
    have hdone := ((hsends.streamed _ rfl sent).mp h).2.1
    have hclosed : (Channel.new.drain (pausing true)).result = .ok false := rfl
    rw [hclosed] at hdone
    cases hdone

end Channel

end PageDispatch
