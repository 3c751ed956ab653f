import PageDispatch.Proofs.Dispatch.Reports
import PageDispatch.Proofs.Run.History

/-!
This module contains the verification that a unit is given what the units before it left behind:
their objects behind those of the context that the run began with, and their writings merged. The
context of a dispatch is left alone.
-/

namespace PageDispatch

namespace Context

variable {c : Context} {kind : ObjectKind} {o : ContextObject}

/-- An object that is asked for by its kind is the last one of that kind. -/
theorem get?_eq_some_iff :
    c.get? kind = some o ↔
      ∃ before after, c.objects = before ++ o :: after ∧ o.kind = kind ∧
        ∀ later ∈ after, later.kind ≠ kind := by
  unfold get?
  rw [List.getLast?_filter, List.find?_eq_some_iff_append]
  constructor
  . intro h
    obtain ⟨hkind, after, before, hreverse, hafter⟩ := h
    refine ⟨before.reverse, after.reverse, ?_, of_decide_eq_true hkind, ?_⟩
    . rw [← List.reverse_reverse c.objects, hreverse]
      simp
    . intro later hmem
      simpa using hafter later (List.mem_reverse.mp hmem)
  . intro h
    obtain ⟨before, after, hobjects, hkind, hafter⟩ := h
    refine ⟨decide_eq_true hkind, after.reverse, before.reverse, ?_, ?_⟩
    . rw [hobjects]
      simp
    . intro later hmem
      simpa using hafter later (List.mem_reverse.mp hmem)

end Context

def Visit.contributed (vs : List Visit) : List ContextObject := vs.flatMap fun v => v.objects

/-- Whether a unit is given what some visits made of a context, and what they wrote. -/
structure UnitView.Shows (context : Context) (vs : List Visit) (view : UnitView) : Prop where
  context : view.context = context.extended (Visit.contributed vs)
  response : view.response = layers (vs.map Visit.toPassage)

section Views

variable {settings : Settings} {first run later : Run} {vs : List Visit} {v : Visit}
  {element : ChainElement} {u : HandlerUnit} {e : Evaluation} {es : List Event}
  {last : Option Evaluation} {chain : HandlerChain} {context : Context} {channel outer : ChannelId}
  {owner : Owner}

theorem Run.Passes.context_eq (h : run.Passes settings v later) :
    later.context = run.context.extended v.objects := by
  cases h with
  | intro hnext htakes hname hdecision => rfl

theorem Run.Since.context_eq (h : first.Since settings vs run) :
    run.context = first.context.extended (Visit.contributed vs) := by
  induction h with
  | start => simp [Visit.contributed, Context.extended]
  | next _ hv ih =>
    rw [hv.context_eq, ih, Context.extended_extended]
    simp [Visit.contributed]

/-- A unit that comes after some visits is shown them, whatever it writes itself. -/
theorem Run.Begins.shows
    (hsince : Since settings (.ofChain chain context channel outer owner) vs run)
    (h : run.Begins settings element u e) : e.view.Shows context vs := by
  cases h with
  | intro hnext htakes hname => exact ⟨hsince.context_eq, hsince.response_eq_layers⟩

/-- Whatever unit was begun with, it is shown the ones before it. -/
theorem Run.Recounts.shows {k : Nat}
    (h : Recounts settings (.ofChain chain context channel outer owner) es vs run last)
    (hk : (es.filterMap Event.evaluation?)[k]? = some e) : e.view.Shows context (vs.take k) := by
  obtain ⟨-, before, element, u, hsince, hbegin⟩ := h.exists_begins hk
  exact hbegin.shows hsince

end Views

namespace Machine

variable {settings : Settings} {m : Machine} {f : Flight} {d : Dispatch}

/-- Whatever the units of its pages contributed, a dispatch keeps the context of its request. -/
theorem Stirred.context_of_holds (h : Stirred settings m) (hf : m.Holds f)
    (howner : f.run.owner = .dispatch d) :
    ∃ channel request, .received d.id channel request ∈ m.journal ∧
      d.context = .forRequest request := by
  obtain ⟨channel, request, pages, hreceived, hr⟩ :=
    h.attends ((h.sane.flights f hf).owner d howner)
  have hown : f.run.owner.id? = some d.id := by rw [howner]; rfl
  have hmem := mem_flights_iff.mpr ⟨hf, hown⟩
  refine ⟨channel, request, hreceived, ?_⟩
  cases hr with
  | @busy g other before es page name evaluated hflights hid hpages htries =>
    rw [hflights] at hmem
    have howner' := htries.owner
    rw [← Multiset.mem_singleton.mp hmem, howner] at howner'
    cases howner'
    exact htries.context
  | quiet hflights hstory hd hrests =>
    rw [hflights] at hmem
    exact absurd hmem (Multiset.notMem_zero f)
  | failed hflights hstory hd hrests =>
    rw [hflights] at hmem
    exact absurd hmem (Multiset.notMem_zero f)

/--
A unit is given the context that its run began with, extended by the objects of the units before it
in the order of evaluation, and the writings of those units merged in that order; whether these were
made from a spec, inserted by other units, or deferred their decision. The runs of a dispatch begin
with the context of its request, and with that the dispatch goes on to its next page.
-/
theorem Stirred.units_see_earlier_units (h : Stirred settings m) :
    (∀ f, m.Holds f → ∃ chain context channel outer owner gs es,
      Lives settings (.ofChain chain context channel outer owner) m f gs es ∧
      f.run.owner = owner ∧
      ∀ d, owner = .dispatch d → d.context = context ∧
        ∃ channel request, .received d.id channel request ∈ m.journal ∧
          context = .forRequest request) ∧
    (∀ chain context channel outer owner job started gs es es',
      Lives settings (.ofChain chain context channel outer owner) m (.queued job) gs es →
      m.startJob? = some (job, started) →
      (started.turn job).1.told job.run.owner.id? = started.told job.run.owner.id? ++ es' →
      ∃ vs run last, (Flight.queued job).IsAt settings run ∧
        Run.Recounts settings (.ofChain chain context channel outer owner) (es ++ es') vs run
          last ∧
        ∀ k e, ((es ++ es').filterMap Event.evaluation?)[k]? = some e →
          e.position = k ∧ e.view.Shows context (vs.take k) ∧
          e.view.context.request = context.request ∧
          ∀ kind o, e.view.context.get? kind = some o ↔
            ∃ before after,
              context.objects ++ Visit.contributed (vs.take k) = before ++ o :: after ∧
              o.kind = kind ∧ ∀ later ∈ after, later.kind ≠ kind) ∧
    (∀ job started d evaluated rejecter, m.startJob? = some (job, started) →
      job.run.owner = .dispatch d →
      (started.turn job).2 = .ended (.rejected evaluated rejecter) →
      (started.work job).1 = ((started.turn job).1.log (.rejected d.id d.tried)).advance d ∧
      ∃ channel request, .received d.id channel request ∈ m.journal ∧
        d.context = .forRequest request) := by
  refine ⟨?_, ?_, ?_⟩
  . intro f hf
    obtain ⟨chain, context, channel, outer, owner, gs, es, hlives, hcontext⟩ := h.traces hf
    have howner : f.run.owner = owner := hlives.owner_eq
    refine ⟨chain, context, channel, outer, owner, gs, es, hlives, howner, ?_⟩
    intro d hd
    rw [← hcontext d hd]
    exact ⟨rfl, h.context_of_holds hf (howner.trans hd)⟩
  . intro chain context channel outer owner job started gs es es' hlives hstart htold
    obtain ⟨vs, run, last, hat, hrecounts⟩ := hlives.exists_recounts_of_turn hstart htold
    refine ⟨vs, run, last, hat, hrecounts, ?_⟩
    intro k e hk
    have hshows := hrecounts.shows hk
    refine ⟨(hrecounts.position_eq hk).trans (Nat.zero_add k), hshows, ?_, ?_⟩
    . rw [hshows.context]
      rfl
    . intro kind o
      rw [hshows.context]
      exact Context.get?_eq_some_iff
  . intro job started d evaluated rejecter hstart howner hturn
    refine ⟨?_, h.context_of_holds (holds_of_startJob? hstart) howner⟩
    unfold work
    rw [howner]
    dsimp only
    rw [hturn]
    rfl

def tellingUnit (n : UInt32) : HandlerUnit where
  name := .ok "Tell"
  evaluate _ := .decide (.consumed [.word n] false)

def tellingRun : Run :=
  .ofChain ⟨"chain", [.unit (tellingUnit 1), .unit (tellingUnit 2), .unit answeringUnit]⟩
    (.forRequest (.new .zero .get "/")) 0 0 .caller

def telling (steps : Nat) : Machine :=
  running .plain [.unit (tellingUnit 1), .unit (tellingUnit 2), .unit answeringUnit] steps

theorem seen_by_answering :
    ∃ vs run last e,
      Run.Recounts .plain tellingRun ((telling 3).told none) vs run last ∧
      (((telling 3).told none).filterMap Event.evaluation?)[2]? = some e ∧ e.position = 2 ∧
      Visit.contributed (vs.take 2) = [.word 1, .word 2] ∧
      e.view.context.get? .word = some (.word 2) := by
  have hstirred : Stirred .plain (telling 2) := (reachable_running .plain _ 2).stirred
  have h0 : Lives .plain tellingRun (telling 0) (.queued (.step tellingRun)) [] [] :=
    .starts (reachable_running .plain _ 0).sane.1 rfl (Multiset.mem_coe.mpr List.mem_cons_self)
  have h1 : Lives .plain tellingRun (telling 1) (.queued (.step _)) _ ((telling 1).told none) :=
    .goes h0 rfl rfl (h0.does rfl).told
  have h2 : Lives .plain tellingRun (telling 2) (.queued (.step _)) _ ((telling 2).told none) :=
    .goes h1 rfl rfl (h1.does rfl).told
  obtain ⟨vs, run, last, -, hrecounts, hseen⟩ :=
    (Stirred.units_see_earlier_units hstirred).2.1 _ _ _ _ _ _ _ _ _ _ h2 rfl
      (h2.does rfl).told
  obtain ⟨hposition, hshows, -, hget⟩ := hseen 2 _ rfl
  have hcontributed : Visit.contributed (vs.take 2) = [.word 1, .word 2] :=
    (congrArg Context.objects hshows.context).symm
  refine ⟨vs, run, last, _, hrecounts, rfl, hposition, hcontributed, ?_⟩
  refine (hget .word (.word 2)).mpr ⟨[.word 1], [], ?_, rfl, List.forall_mem_nil _⟩
  rw [hcontributed]
  rfl

end Machine
end PageDispatch
