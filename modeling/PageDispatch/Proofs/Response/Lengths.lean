import PageDispatch.Proofs.Response.Grouping
import PageDispatch.Proofs.Run.Merging

/-!
This module contains what the answer for a failure says about its own length. The engine writes the
body and its type; a length is only told if a unit has written one, and then it is told as written.
-/

namespace PageDispatch

/-- Whether a value of the content length header is read as a certain number of bytes. -/
def HeaderValue.Counts (v : HeaderValue) (length : Nat) : Prop :=
  ∃ n, HeaderCodec.contentLength.read v = .ok n ∧ n.toNat = length

/-- Whether every content length of a response is that of the message that it carries. -/
def Response.TellsLength (r : Response) : Prop :=
  ∃ bytes, r.body = .message bytes ∧ ∀ v ∈ r.headers.getAll .contentLength, v.Counts bytes.length

theorem HeaderSet.getAll_merge_insert_of_ne (h other : HeaderSet) {name n : HeaderName}
    (hne : name ≠ n) (value : HeaderValue) :
    (h.merge (other.insert name value)).getAll n = (h.merge other).getAll n := by
  have hrepeatable := isRepeatable_congr (declared_insert other name value) n
  have hvalues : (other.insert name value).getAll n = other.getAll n := by
    rw [getAll_insert, if_neg hne]
  rw [getAll_merge, getAll_merge, hrepeatable, get?, get?, hvalues]

namespace Accumulator

theorem body_merge_writeFailure (a own : Accumulator) (s : String) :
    (a.merge (own.writeFailure s)).body = .message (Utf8.encode s) := by
  rw [body_merge]
  rfl

theorem getAll_merge_writeFailure (a own : Accumulator) (s : String) {n : HeaderName}
    (hn : HeaderName.contentType ≠ n) :
    (a.merge (own.writeFailure s)).headers.getAll n = (a.merge own).headers.getAll n := by
  rw [headers_merge, headers_merge]
  exact HeaderSet.getAll_merge_insert_of_ne _ _ hn _

theorem tellsLength_writeFailure_iff (a own : Accumulator) (s : String) :
    (a.merge (own.writeFailure s)).toResponse.TellsLength
      ↔
    ∀ v ∈ (a.merge own).headers.getAll .contentLength, v.Counts (Utf8.encode s).length := by
  have hbody : (a.merge (own.writeFailure s)).toResponse.body = .message (Utf8.encode s) :=
    body_merge_writeFailure a own s
  have hvalues : (a.merge (own.writeFailure s)).toResponse.headers.getAll .contentLength
      = (a.merge own).headers.getAll .contentLength :=
    getAll_merge_writeFailure a own s (by decide)
  unfold Response.TellsLength
  rw [hbody, hvalues]
  simp

end Accumulator

variable {settings : Settings}

namespace Run

variable {run : Run} {ps : List Passage} {a : Answer} {g : Glance}

/-- The failure that a run is answered for, and what its last unit has written by then. -/
inductive FailsWith (settings : Settings) (run : Run) : UnitFailure → Accumulator → Prop
  | fails {f : UnitFailure} {own : Accumulator} (h : run.Concludes settings (.failure f) own) :
    FailsWith settings run f own
  | encodes {status : Status} {value : Json} {own : Accumulator} {e : CauseChain}
    (h : run.Concludes settings (.respond status (some (.structured value))) own)
    (hcodec : (settings.codec value).result = .ok (.error e)) :
    FailsWith settings run (.error e) (own.setStatus status)

theorem failsWith_of_responding {later : Run} {unit : String} {position : Nat} {status : Status}
    {message : Option ResponseMessage} {own : Accumulator}
    (h : run.Concludes settings (.respond status message) own)
    (hend : (later.responding settings unit position status message own).progress
      = .ended (.answered a))
    (ha : a.record.kind = .failure) :
    ∃ f own, run.FailsWith settings f own ∧
      a.response = (later.response.merge (own.writeFailure
        (f.render settings.exposeDetails))).toResponse := by
  have hanswered : ∀ last, a = later.answer last unit (some position) .respondWith none →
      False := by
    intro last heq
    rw [heq] at ha
    cases ha
  unfold responding at hend
  match message with
  | none =>
    injection hend with hend
    injection hend with hend
    exact (hanswered _ hend.symm).elim
  | some (.text s) =>
    injection hend with hend
    injection hend with hend
    exact (hanswered _ hend.symm).elim
  | some (.structured value) =>
    dsimp only at hend
    split at hend
    . injection hend with hend
      injection hend with hend
      exact (hanswered _ hend.symm).elim
    . next e hcodec => exact ⟨.error e, _, .encodes h hcodec, response_of_failing hend⟩
    . cases hend

/-- Whatever a run fails with, the answer for it is laid over the same writings. -/
theorem exists_failsWith (h : run.response = layers ps)
    (hend : (run.passing settings g).progress = .ended (.answered a))
    (ha : a.record.kind = .failure) :
    ∃ f own, run.FailsWith settings f own ∧
      a.response = ((layers ps).merge (own.writeFailure
        (f.render settings.exposeDetails))).toResponse := by
  obtain ⟨own, unit, later, hresembles, hresponded | hfailed⟩ := concludes_of_passing hend
  . obtain ⟨status, message, position, hconcludes, hanswered⟩ := hresponded
    rw [← h, ← hresembles.response]
    exact failsWith_of_responding hconcludes hanswered ha
  . obtain ⟨f, place, hconcludes, hanswered⟩ := hfailed
    refine ⟨f, own, .fails hconcludes, ?_⟩
    rw [response_of_failing hanswered, hresembles.response, h]

end Run

theorem getAll_merge_layers_of_none {ps : List Passage} {own : Accumulator} {n : HeaderName}
    (hps : ps.all (!·.own.headers.contains n) = true) (hown : own.headers.contains n = false) :
    ((layers ps).merge own).headers.getAll n = [] := by
  have hany : ps.any (·.own.headers.contains n) = false := by
    rw [List.any_eq_false]
    intro p hp
    have hnone := List.all_eq_true.mp hps p hp
    simpa using hnone
  rw [← HeaderSet.contains_eq_false_iff, Accumulator.contains_headers_merge, layers,
    contains_headers_foldl_merge, hany, hown]
  rfl

namespace Machine

variable {m : Machine}

/--
The answer for a failure carries the text of the failure, and exactly the content lengths that the
units of the run have written, merged as everything else. So it tells its own length if and only if
each of these is the length of that text, and surely if no unit has written any.
-/
theorem Stirred.lengths_of_failure (h : Stirred settings m) :
    (∀ f, m.Holds f → ∃ chain context channel outer owner gs es,
      Lives settings (.ofChain chain context channel outer owner) m f gs es) ∧
    (∀ chain context channel outer owner job started gs es es' a,
      Lives settings (.ofChain chain context channel outer owner) m (.queued job) gs es →
      m.startJob? = some (job, started) →
      (started.turn job).1.told job.run.owner.id? = started.told job.run.owner.id? ++ es' →
      (started.turn job).2 = .ended (.answered a) → a.record.kind = .failure →
      ∃ vs run last f own, (Flight.queued job).IsAt settings run ∧
        Run.Recounts settings (.ofChain chain context channel outer owner) (es ++ es') vs run
          last ∧
        run.FailsWith settings f own ∧
        a.response.body = .message (Utf8.encode (f.render settings.exposeDetails)) ∧
        a.response.headers.getAll .contentLength
          = ((layers (vs.map Visit.toPassage)).merge own).headers.getAll .contentLength ∧
        (a.response.TellsLength ↔
          ∀ v ∈ ((layers (vs.map Visit.toPassage)).merge own).headers.getAll .contentLength,
            v.Counts (Utf8.encode (f.render settings.exposeDetails)).length) ∧
        ((vs.map Visit.toPassage).all (!·.own.headers.contains .contentLength) = true →
          own.headers.contains .contentLength = false → a.response.TellsLength)) ∧
    (∀ (n : Machine) page context channel outer owner e a, n.settings = settings →
      (n.failPage page context channel outer owner e).2 = some a → a.response.TellsLength) := by
  refine ⟨?_, ?_, ?_⟩
  . intro f hf
    obtain ⟨chain, context, channel, outer, owner, gs, es, hlives, -⟩ := h.traces hf
    exact ⟨chain, context, channel, outer, owner, gs, es, hlives⟩
  . intro chain context channel outer owner job started gs es es' a hlives hstart htold hend ha
    obtain ⟨vs, run, last, hat, hrecounts, hended⟩ := hlives.exists_passing hstart htold hend
    obtain ⟨f, own, hfails, hresponse⟩ :=
      Run.exists_failsWith hrecounts.since.response_eq_layers hended ha
    have hbody := Accumulator.body_merge_writeFailure (layers (vs.map Visit.toPassage)) own
      (f.render settings.exposeDetails)
    refine ⟨vs, run, last, f, own, hat, hrecounts, hfails, ?_⟩
    rw [hresponse]
    refine ⟨hbody, ?_, ?_, ?_⟩
    . exact Accumulator.getAll_merge_writeFailure _ _ _ (by decide)
    . exact Accumulator.tellsLength_writeFailure_iff _ _ _
    . intro hps hown
      rw [Accumulator.tellsLength_writeFailure_iff, getAll_merge_layers_of_none hps hown]
      exact List.forall_mem_nil _
  . intro n page context channel outer owner e a hsettings ha
    rw [failPage_eq_some ha, Accumulator.tellsLength_writeFailure_iff]
    exact List.forall_mem_nil _

/-- A unit that writes a length, waits, and comes to no decision. -/
def hesitatingUnit : HandlerUnit where
  name := .ok "Measure"
  evaluate _ := ⟨[], Accumulator.empty.insertRaw .contentLength (.ofNat 5), [],
    .deferred ⟨some 5, false, .error .abandoned⟩⟩

def hesitatingRun : Run :=
  .ofChain ⟨"chain", [.unit hesitatingUnit]⟩ (.forRequest (.new .zero .get "/")) 0 0 .caller

def hesitating (steps : Nat) : Machine := running .plain [.unit hesitatingUnit] steps

theorem lengths_of_hesitating :
    ∃ job started a, (hesitating 2).startJob? = some (job, started) ∧
      (started.turn job).2 = .ended (.answered a) ∧ a.record.kind = .failure ∧
      (∃ vs run last f own,
        Run.Recounts .plain hesitatingRun ((hesitating 3).told none) vs run last ∧
        run.FailsWith .plain f own ∧
        a.response.headers.getAll .contentLength
          = ((layers (vs.map Visit.toPassage)).merge own).headers.getAll .contentLength) ∧
      a.response.headers.getAll .contentLength = [.ofNat 5] := by
  have hstirred : Stirred .plain (hesitating 2) := (reachable_running .plain _ 2).stirred
  have h0 : Lives .plain hesitatingRun (hesitating 0) (.queued (.step hesitatingRun)) [] [] :=
    .starts (reachable_running .plain _ 0).sane.1 rfl (Multiset.mem_coe.mpr List.mem_cons_self)
  have h1 : Lives .plain hesitatingRun (hesitating 1) (.parked _ _ _ _) _
      ((hesitating 1).told none) := .defers h0 rfl rfl (h0.does rfl).told
  have h2 : Lives .plain hesitatingRun (hesitating 2) (.queued (.resume _ _)) _
      ((hesitating 2).told none) :=
    .wakes h1 (step_of_next? rfl).stirs (Multiset.mem_coe.mpr List.mem_cons_self)
  obtain ⟨vs, run, last, f, own, -, hrecounts, hfails, -, hlengths, -⟩ :=
    (Stirred.lengths_of_failure hstirred).2.1 _ _ _ _ _ _ _ _ _ _ _ h2 rfl (h2.does rfl).told rfl
      rfl
  exact ⟨_, _, _, rfl, rfl, rfl, ⟨vs, run, last, f, own, hrecounts, hfails, hlengths⟩, rfl⟩

def measuring : List ChainElement :=
  [.unit ⟨.ok "Measure", fun _ =>
      ⟨[], Accumulator.empty.insertRaw .contentLength (.ofNat 5), [],
        .decided (.consumed [] false)⟩⟩,
    .unit ⟨.ok "Fail", fun _ => ⟨[], .empty, [], .failed (.of "boom")⟩⟩]

/-- A length that a unit has written before goes out with the text of the failure. -/
theorem not_tellsLength_of_measuring :
    ∃ m job started a, Reachable .plain m ∧ m.startJob? = some (job, started) ∧
      (started.turn job).2 = .ended (.answered a) ∧ a.record.kind = .failure ∧
      ¬a.response.TellsLength := by
  refine ⟨_, _, _, _, reachable_running .plain measuring 1, rfl, rfl, rfl, ?_⟩
  rintro ⟨bytes, hbody, hlengths⟩
  injection hbody with hbody
  have hwritten : HeaderCodec.contentLength.read (.ofNat 5) = .ok 5 := rfl
  obtain ⟨n, hread, hn⟩ := hlengths (.ofNat 5) (by decide +kernel)
  rw [hwritten] at hread
  injection hread with hread
  rw [← hread, ← hbody] at hn
  revert hn
  decide +kernel

end Machine
end PageDispatch
