import PageDispatch.Proofs.Run.Blame
import PageDispatch.Proofs.Run.Deferral

/-!
This module contains what a run has gone through: the elements that it has taken, what their units
were given, and what they left behind. What is told about a run, whatever happens around it, is such
a history.
-/

namespace PageDispatch

/-- The begin of the evaluation of a unit. -/
structure Evaluation where
  position : Nat
  unit : String
  view : UnitView

/-- An element whose unit let its run go on. -/
structure Visit extends Evaluation, Passage where
  element : ChainElement
  edits : List RemnantEdit

def Event.evaluation? : Event → Option Evaluation
  | evaluating _ position unit view => some ⟨position, unit, view⟩
  | _ => none

/-- Whether a flight is the first one of a run, in the context of the dispatch that it serves. -/
def Flight.SetsOut (f : Flight) : Prop :=
  ∃ chain context channel outer owner,
    f = .queued (.step (.ofChain chain context channel outer owner)) ∧
    ∀ d, owner = .dispatch d → d.context = context

namespace Run

variable (settings : Settings)

/-- Whether a run takes an element and begins to evaluate its unit. -/
inductive Begins (run : Run) : ChainElement → HandlerUnit → Evaluation → Prop
  | intro {element : ChainElement} {u : HandlerUnit} {remnant : Remnant} {name : String}
    (hnext : run.remnant.next? = some (element, remnant))
    (htakes : run.Takes settings u (run.past remnant)) (hname : u.name = .ok name) :
    Begins run element u ⟨run.evaluated, name, (run.past remnant).view⟩

/-- Whether a run takes an element and goes on with what its unit decides, deferred or not. -/
inductive Passes (run : Run) : Visit → Run → Prop
  | intro {element : ChainElement} {u : HandlerUnit} {remnant : Remnant} {name : String}
    {objects : List ContextObject} {locked : Bool} {own : Accumulator}
    (hnext : run.remnant.next? = some (element, remnant))
    (htakes : run.Takes settings u (run.past remnant)) (hname : u.name = .ok name)
    (hdecision : (u.evaluate (run.past remnant).view).decision
      = (.outcome (.consumed objects locked), own)) :
    Passes run
      { position := run.evaluated, unit := name, view := (run.past remnant).view
        own, objects, locked, element, edits := (u.evaluate (run.past remnant).view).edits }
      (((run.past remnant).edited (u.evaluate (run.past remnant).view).edits).consume own objects
        locked)

/-- The way of a run from its first element to where it is now. -/
inductive Since (first : Run) : List Visit → Run → Prop
  | start : Since first [] first
  | next {vs : List Visit} {v : Visit} {run later : Run} (h : Since first vs run)
    (hv : run.Passes settings v later) : Since first (vs ++ [v]) later

/--
Whether events tell the history of a run, and nothing else about evaluations; the unit that the run
is at may have been begun with.
-/
structure Recounts (first : Run) (es : List Event) (vs : List Visit) (run : Run)
    (last : Option Evaluation) : Prop where
  since : first.Since settings vs run
  told : es.filterMap Event.evaluation? = vs.map Visit.toEvaluation ++ last.toList
  begins : ∀ e ∈ last, ∃ element u, run.Begins settings element u e

end Run

section Since

variable {settings : Settings} {first next run later : Run} {v : Visit} {vs : List Visit}

theorem Run.Passes.begins (h : run.Passes settings v later) :
    ∃ u, run.Begins settings v.element u v.toEvaluation := by
  cases h with
  | intro hnext htakes hname hdecision => exact ⟨_, .intro hnext htakes hname⟩

theorem Run.Passes.response_eq (h : run.Passes settings v later) :
    later.response = run.response.merge v.own := by
  cases h with
  | intro hnext htakes hname hdecision => rfl

namespace Run.Since

theorem cons (hv : first.Passes settings v next) (h : next.Since settings vs run) :
    first.Since settings (v :: vs) run := by
  induction h with
  | start => exact .next .start hv
  | next _ hlast ih => exact .next ih hlast

theorem evaluated_eq (h : first.Since settings vs run) :
    run.evaluated = first.evaluated + vs.length := by
  induction h with
  | start => rfl
  | next _ hv ih =>
    cases hv with
    | intro hnext htakes hname hdecision =>
      rw [List.length_append, List.length_singleton, ← Nat.add_assoc, ← ih]
      rfl

theorem response_eq (h : first.Since settings vs run) :
    run.response = (vs.map fun v => v.own).foldl Accumulator.merge first.response := by
  induction h with
  | start => rfl
  | next _ hv ih =>
    rw [hv.response_eq, ih, List.map_append, List.foldl_append]
    rfl

theorem response_eq_layers {chain : HandlerChain} {context : Context} {channel outer : ChannelId}
    {owner : Owner}
    (h : Since settings (.ofChain chain context channel outer owner) vs run) :
    run.response = layers (vs.map Visit.toPassage) := by
  unfold layers
  rw [List.map_map]
  exact h.response_eq

theorem owner_eq (h : first.Since settings vs run) : run.owner = first.owner := by
  induction h with
  | start => rfl
  | next _ hv ih =>
    cases hv with
    | intro hnext htakes hname hdecision => exact ih

/-- Where a run was when it came to one of its visits. -/
theorem exists_of_getElem? {k : Nat} (h : first.Since settings vs run) (hk : vs[k]? = some v) :
    ∃ before after, first.Since settings (vs.take k) before ∧ before.Passes settings v after := by
  induction h with
  | start => cases hk
  | @next vs last before after h hv ih =>
    have hlt := (List.getElem?_eq_some_iff.mp hk).1
    rw [List.length_append, List.length_singleton] at hlt
    cases Nat.lt_or_eq_of_le (Nat.le_of_lt_succ hlt) with
    | inl hlt =>
      rw [List.getElem?_append_left hlt] at hk
      rw [List.take_append_of_le_length (Nat.le_of_lt hlt)]
      exact ih hk
    | inr heq =>
      subst heq
      rw [List.getElem?_concat_length] at hk
      cases hk
      rw [List.take_append_length]
      exact ⟨before, after, h, hv⟩

end Run.Since

theorem Run.Begins.position_eq {element : ChainElement} {u : HandlerUnit} {e : Evaluation}
    (h : run.Begins settings element u e) : e.position = run.evaluated := by
  cases h with
  | intro hnext htakes hname => rfl

/-- Whatever unit was begun with, it is the one of the next element after the visits before it. -/
theorem Run.Recounts.exists_begins {es : List Event} {last : Option Evaluation} {k : Nat}
    {e : Evaluation} (h : first.Recounts settings es vs run last)
    (hk : (es.filterMap Event.evaluation?)[k]? = some e) :
    (vs.take k).length = k ∧
    ∃ before element u, first.Since settings (vs.take k) before ∧
      before.Begins settings element u e := by
  have hlt := (List.getElem?_eq_some_iff.mp hk).1
  rw [h.told, List.length_append, List.length_map] at hlt
  rw [h.told] at hk
  cases Nat.lt_or_ge k vs.length with
  | inl hvisit =>
    rw [List.getElem?_append_left (by rw [List.length_map]; exact hvisit), List.getElem?_map] at hk
    obtain ⟨v, hv, rfl⟩ := Option.map_eq_some_iff.mp hk
    obtain ⟨before, after, hsince, hpasses⟩ := h.since.exists_of_getElem? hv
    obtain ⟨u, hbegin⟩ := hpasses.begins
    exact ⟨List.length_take_of_le (Nat.le_of_lt hvisit), before, _, u, hsince, hbegin⟩
  | inr hcurrent =>
    have hlast : last.toList.length ≤ 1 := by cases last <;> simp
    have heq : k = vs.length := by omega
    rw [List.getElem?_append_right (by rw [List.length_map]; exact hcurrent)] at hk
    obtain ⟨element, u, hbegin⟩ := h.begins e (Option.mem_toList.mp (List.mem_of_getElem? hk))
    rw [heq, List.take_length]
    exact ⟨rfl, run, element, u, h.since, hbegin⟩

theorem Run.Recounts.position_eq {es : List Event} {last : Option Evaluation} {k : Nat}
    {e : Evaluation} (h : first.Recounts settings es vs run last)
    (hk : (es.filterMap Event.evaluation?)[k]? = some e) : e.position = first.evaluated + k := by
  obtain ⟨hlength, before, element, u, hsince, hbegin⟩ := h.exists_begins hk
  rw [hbegin.position_eq, hsince.evaluated_eq, hlength]

end Since

section Told

variable {settings : Settings} {first run later : Run} {es : List Event} {gs : List Glance}

theorem evaluation?_of_isEffort {e : Event} (h : e.isEffort = false) : e.evaluation? = none := by
  cases e <;> first | rfl | cases h

theorem evaluations_eq_nil (h : ∀ e ∈ es, e.isEffort = false) :
    es.filterMap Event.evaluation? = [] := by
  rw [List.filterMap_eq_nil_iff]
  intro e he
  exact evaluation?_of_isEffort (h e he)

/-- What becomes of a run in the end is no evaluation. -/
theorem evaluations_taking (isOpen : Bool) (v : Ruling) :
    (run.taking settings isOpen v).events.filterMap Event.evaluation? = [] := by
  apply evaluations_eq_nil
  intro e he
  cases v with
  | decides unit position outcome own =>
    unfold Run.taking at he
    dsimp only at he
    split at he
    . exact isEffort_of_mem_applying he
    . cases he
  | fails unit position failure own =>
    cases isOpen with
    | true => exact isEffort_of_mem_failing he
    | false => cases he
  | defers unit position own plan => cases he
  | runsOut => cases he
  | escapes => cases he

theorem evaluations_standing (position : Nat) (u : HandlerUnit) :
    ∃ last : Option Evaluation,
      (run.standing position u).events.filterMap Event.evaluation? = last.toList ∧
      ∀ e ∈ last, u.name = .ok e.unit ∧ e = ⟨position, e.unit, run.view⟩ := by
  unfold Run.standing
  cases u.name with
  | error payload => exact ⟨none, rfl, by simp⟩
  | ok name => exact ⟨some ⟨position, name, run.view⟩, rfl, by simp⟩

/-- A job evaluates at most one unit, and that is the unit of the next element. -/
theorem evaluations_stance (run : Run) :
    ∃ last : Option Evaluation,
      (run.stance settings).events.filterMap Event.evaluation? = last.toList ∧
      ∀ e ∈ last, ∃ element u, run.Begins settings element u e := by
  unfold Run.stance
  cases hnext : run.remnant.next? with
  | none => exact ⟨none, rfl, by simp⟩
  | some next =>
    obtain ⟨element, remnant⟩ := next
    have hbegins : ∀ u, run.Takes settings u (run.past remnant) → ∀ e : Evaluation,
        u.name = .ok e.unit ∧ e = ⟨run.evaluated, e.unit, (run.past remnant).view⟩ →
          ∃ element u, run.Begins settings element u e := by
      intro u htakes e he
      rw [he.2]
      exact ⟨element, u, .intro hnext htakes he.1⟩
    cases element with
    | unit u =>
      obtain ⟨last, htold, hlast⟩ := @evaluations_standing (run.past remnant) run.evaluated u
      exact ⟨last, htold, fun e he => hbegins u (.unit hnext) e (hlast e he)⟩
    | spec spec =>
      dsimp only [Run.facing]
      cases hmade : (run.past remnant).made settings spec with
      | error e => exact ⟨none, rfl, by simp⟩
      | ok u =>
        obtain ⟨last, htold, hlast⟩ := @evaluations_standing (run.past remnant) run.evaluated u
        refine ⟨last, ?_, fun e he => hbegins u (.spec hnext hmade) e (hlast e he)⟩
        dsimp only
        rw [List.filterMap_cons]
        exact htold

/-- Only a unit that is evaluated decides anything. -/
theorem stance_of_isDecision (h : (run.stance settings).ruling.IsDecision) :
    ∃ element u remnant name, run.remnant.next? = some (element, remnant) ∧
      run.Takes settings u (run.past remnant) ∧ u.name = .ok name ∧
      (run.stance settings).events.filterMap Event.evaluation?
        = [⟨run.evaluated, name, (run.past remnant).view⟩] ∧
      (run.stance settings).run
        = (run.past remnant).edited (u.evaluate (run.past remnant).view).edits ∧
      (run.stance settings).ruling
        = (u.evaluate (run.past remnant).view).ending.ruling name run.evaluated
            (u.evaluate (run.past remnant).view).response := by
  obtain ⟨u, taken, htakes⟩ | hnone | ⟨spec, remnant, e, hnext, hmade⟩ :=
    @Job.takes_cases settings run
  . cases hname : u.name with
    | error payload =>
      obtain ⟨before, -, hstance⟩ := Run.stance_of_takes htakes
      rw [hstance] at h
      unfold Run.standing at h
      rw [hname] at h
      exact h.elim
    | ok name =>
      cases htakes with
      | @unit _ remnant hnext =>
        refine ⟨_, u, remnant, name, hnext, .unit hnext, hname, ?_⟩
        unfold Run.stance Run.facing Run.standing
        rw [hnext]
        dsimp only
        rw [hname]
        exact ⟨rfl, rfl, rfl⟩
      | @spec spec _ remnant hnext hmade =>
        refine ⟨_, u, remnant, name, hnext, .spec hnext hmade, hname, ?_⟩
        unfold Run.stance Run.facing Run.standing
        rw [hnext]
        dsimp only
        rw [hmade]
        dsimp only
        rw [hname]
        exact ⟨rfl, rfl, rfl⟩
  . unfold Run.stance at h
    rw [hnone] at h
    dsimp only at h
    split at h <;> exact h.elim
  . unfold Run.stance Run.facing at h
    rw [hnext] at h
    dsimp only at h
    rw [hmade] at h
    exact h.elim

/-- A run goes on only past a unit that lets it. -/
theorem exists_passes_of_passing {g : Glance}
    (h : run.passing settings g = ⟨es, .continues later⟩) :
    ∃ v, run.Passes settings v later ∧ es.filterMap Event.evaluation? = [v.toEvaluation] := by
  cases g with
  | unseen => cases h
  | seen isOpen =>
    injection h with hevents hprogress
    have hdecision := (isDecision_of_taking_continues hprogress).1.of_resolved
    obtain ⟨element, u, remnant, name, hnext, htakes, hname, htold, hrun, hruling⟩ :=
      stance_of_isDecision hdecision
    dsimp only at hprogress
    rw [hrun, hruling, UnitWork.ruling_resolved] at hprogress
    have htold' : es.filterMap Event.evaluation?
        = [⟨run.evaluated, name, (run.past remnant).view⟩] := by
      rw [← hevents, List.filterMap_append, htold, evaluations_taking]
      rfl
    obtain ⟨unit, position, objects, locked, own, hdecides, rfl⟩ := eq_of_taking_continues hprogress
    generalize hwork : (u.evaluate (run.past remnant).view).decision = decided at hdecides
    obtain ⟨decision, written⟩ := decided
    cases decision with
    | failure f => cases hdecides
    | outcome o =>
      cases hdecides
      exact ⟨_, .intro hnext htakes hname hwork, htold'⟩

/-- What was told of a run that goes on is the history of it. -/
theorem exists_since_of_story (h : first.story settings gs = ⟨es, .continues run⟩) :
    ∃ vs, first.Since settings vs run ∧ vs.length = gs.length ∧
      es.filterMap Event.evaluation? = vs.map Visit.toEvaluation := by
  induction gs generalizing first es with
  | nil =>
    injection h with hes hrun
    injection hrun with hrun
    rw [← hes, ← hrun]
    exact ⟨[], .start, rfl, rfl⟩
  | cons g rest ih =>
    unfold Run.story at h
    split at h
    . next before next hpassing =>
      obtain ⟨v, hv, htold⟩ := exists_passes_of_passing hpassing
      injection h with hes hprogress
      obtain ⟨vs, hsince, hlength, hrest⟩ :=
        @ih next (next.story settings rest).events (by rw [← hprogress])
      refine ⟨v :: vs, hsince.cons hv, congrArg (· + 1) hlength, ?_⟩
      rw [← hes, List.filterMap_append, htold, hrest]
      rfl
    . next hother => exact absurd h (hother es run)

end Told

section Lives

variable {settings : Settings} {first : Run} {m m' started : Machine} {f : Flight} {job : Job}
  {gs : List Glance} {es es' : List Event}

theorem evaluations_seeing_resume (s : Suspension) (r : Resolved) (g : Glance) :
    ((Job.resume s r).seeing settings g).events.filterMap Event.evaluation? = [] := by
  cases g with
  | unseen => rfl
  | seen isOpen => exact evaluations_taking isOpen _

theorem evaluations_seeing_step (run : Run) (g : Glance) :
    ∃ last : Option Evaluation,
      ((Job.step run).seeing settings g).events.filterMap Event.evaluation? = last.toList ∧
      ∀ e ∈ last, ∃ element u, run.Begins settings element u e := by
  cases g with
  | unseen => exact ⟨none, rfl, by simp⟩
  | seen isOpen =>
    obtain ⟨last, htold, hlast⟩ := @evaluations_stance settings run
    refine ⟨last, ?_, hlast⟩
    simp only [Job.seeing, Stance.taken, List.filterMap_append, evaluations_taking,
      List.append_nil]
    exact htold

/-- Whether a run was suspended when it came to an element, and what that is resolved with. -/
def Suspension.Halts (settings : Settings) (run : Run) (s : Suspension) (r : Resolved) : Prop :=
  ∃ es plan, run.stance settings = ⟨es, s.run, .defers s.unit s.position s.own plan⟩ ∧
    plan.resolved = r

/-- Whether a flight takes the next element of a run, or has begun with it already. -/
inductive Flight.IsAt (settings : Settings) (run : Run) : Flight → Prop
  | step : IsAt settings run (.queued (.step run))
  | resume {s : Suspension} {r : Resolved} (h : s.Halts settings run r) :
    IsAt settings run (.queued (.resume s r))
  | parked {s : Suspension} {closes : Bool} {outer : ChannelId} {r : Resolved}
    (h : s.Halts settings run r) : IsAt settings run (.parked s closes outer r)

theorem Flight.IsAt.owner_eq {run : Run} (h : f.IsAt settings run) :
    f.run.owner = run.owner := by
  have hhalts : ∀ {s : Suspension} {r : Resolved}, s.Halts settings run r →
      s.run.owner = run.owner := by
    intro s r hs
    obtain ⟨es, plan, hstance, -⟩ := hs
    have hresembles := @Run.resembles_stance settings run
    rw [hstance] at hresembles
    exact hresembles.owner
  cases h with
  | step => rfl
  | resume hs => exact hhalts hs
  | parked hs => exact hhalts hs

theorem Suspension.Pauses.exists_recounts {s : Suspension} {r : Resolved}
    (h : s.Pauses settings first gs r es) :
    ∃ vs run last, s.Halts settings run r ∧ first.Recounts settings es vs run last := by
  obtain ⟨run, before, after, plan, rfl, hstory, hstance, hresolved⟩ := h
  obtain ⟨vs, hsince, -, htold⟩ := exists_since_of_story hstory
  obtain ⟨last, hlast, hbegins⟩ := @evaluations_stance settings run
  refine ⟨vs, run, last, ⟨after, plan, hstance, hresolved⟩, hsince, ?_, hbegins⟩
  rw [List.filterMap_append, htold, ← hlast, hstance]

theorem Flight.Stands.exists_recounts (h : f.Stands settings first gs es) :
    ∃ vs run last, f.IsAt settings run ∧ first.Recounts settings es vs run last := by
  cases h with
  | step hstory =>
    obtain ⟨vs, hsince, -, htold⟩ := exists_since_of_story hstory
    refine ⟨vs, _, none, .step, hsince, ?_, by simp⟩
    rw [htold, Option.toList_none, List.append_nil]
  | resume hpauses =>
    obtain ⟨vs, run, last, hhalts, hrecounts⟩ := hpauses.exists_recounts
    exact ⟨vs, run, last, .resume hhalts, hrecounts⟩
  | parked hpauses =>
    obtain ⟨vs, run, last, hhalts, hrecounts⟩ := hpauses.exists_recounts
    exact ⟨vs, run, last, .parked hhalts, hrecounts⟩

/-- A job tells no more than one evaluation, and one of the element that its run is at. -/
theorem Flight.Stands.exists_recounts_of_seeing
    (h : (Flight.queued job).Stands settings first gs es) (g : Glance) :
    ∃ vs run last, (Flight.queued job).IsAt settings run ∧
      first.Recounts settings (es ++ (job.seeing settings g).events) vs run last := by
  cases h with
  | @step run es hstory =>
    obtain ⟨vs, hsince, -, htold⟩ := exists_since_of_story hstory
    obtain ⟨last, hlast, hbegins⟩ := @evaluations_seeing_step settings run g
    refine ⟨vs, run, last, .step, hsince, ?_, hbegins⟩
    rw [List.filterMap_append, htold, hlast]
  | @resume s r es hpauses =>
    obtain ⟨vs, run, last, hhalts, hsince, htold, hbegins⟩ := hpauses.exists_recounts
    refine ⟨vs, run, last, .resume hhalts, hsince, ?_, hbegins⟩
    rw [List.filterMap_append, evaluations_seeing_resume, List.append_nil, htold]

end Lives

namespace Machine

variable {settings : Settings} {first : Run} {m m' started : Machine} {f : Flight} {job : Job}
  {gs : List Glance} {es es' : List Event}

theorem Lives.exists_recounts (h : Lives settings first m f gs es) :
    ∃ vs run last, f.IsAt settings run ∧ first.Recounts settings es vs run last :=
  h.stands.exists_recounts

theorem Lives.owner_eq (h : Lives settings first m f gs es) : f.run.owner = first.owner := by
  obtain ⟨vs, run, last, hat, hrecounts⟩ := h.exists_recounts
  rw [hat.owner_eq, hrecounts.since.owner_eq]

theorem Lives.exists_recounts_of_turn (h : Lives settings first m (.queued job) gs es)
    (hstart : m.startJob? = some (job, started))
    (htold : (started.turn job).1.told job.run.owner.id?
      = started.told job.run.owner.id? ++ es') :
    ∃ vs run last, (Flight.queued job).IsAt settings run ∧
      first.Recounts settings (es ++ es') vs run last := by
  rw [(h.does hstart).events_eq htold]
  exact h.stands.exists_recounts_of_seeing (started.glance job)

section Beginning

theorem setsOut_start (d : Dispatch) (chain : HandlerChain) :
    (Flight.queued (.step (d.start chain))).SetsOut := by
  refine ⟨chain, d.context, d.channel, d.outer, .dispatch d, rfl, ?_⟩
  intro other hother
  cases hother
  rfl

theorem Acts.setsOut {who : Nat → Prop} (h : Acts who m m') (hf : m'.Holds f) :
    m.Holds f ∨ f.SetsOut := by
  cases h.holds hf with
  | inl hold => exact .inl hold
  | inr hnew =>
    obtain ⟨d, chain, rfl, -⟩ := hnew
    exact .inr (setsOut_start d chain)

theorem Calm.setsOut (h : m.Calm m') (hf : m'.Holds f) : m.Holds f ∨ f.SetsOut := by
  cases h with
  | reorder hperm =>
    cases f with
    | queued job => exact .inl (hperm.mem_iff.mp hf)
    | parked s closes outer r => exact .inl hf
  | ring now htimers hp =>
    rw [← mem_inFlight_iff, inFlight_ring_of_none now htimers hp] at hf
    exact .inl (mem_inFlight_iff.mp hf)
  | @dispatch channel request hc =>
    exact (@acts_dispatch m (fun _ => True) channel channel trivial hc request false).setsOut hf
  | @runChain channel chain context hc =>
    cases holds_of_submit hf with
    | inl hold => exact .inl hold
    | inr hnew => exact .inr ⟨chain, context, channel, channel, .caller, hnew, nofun⟩
  | connect wire hw => exact .inl hf
  | close id => exact .inl hf
  | rewire id hw => exact .inl hf
  | registerPage page => exact .inl hf
  | addDecorator decorator => exact .inl hf

/-- Whether the way of a run is known from the chain and the context that it began with. -/
def Traces (settings : Settings) (m : Machine) (f : Flight) : Prop :=
  ∃ chain context channel outer owner gs es,
    Lives settings (.ofChain chain context channel outer owner) m f gs es ∧
    ∀ d, owner = .dispatch d → d.context = context

theorem Traces.of_setsOut (hm : m.Sane) (hsettings : m.settings = settings) (hf : m.Holds f)
    (h : f.SetsOut) : Traces settings m f := by
  obtain ⟨chain, context, channel, outer, owner, rfl, hcontext⟩ := h
  exact ⟨chain, context, channel, outer, owner, [], [],
    .starts hm hsettings (mem_inFlight_iff.mpr hf), hcontext⟩

theorem Traces.work (h : Traces settings m (.queued job))
    (hstart : m.startJob? = some (job, started)) (hnext : (started.turn job).2.flight? = some f) :
    Traces settings ((started.work job).1.endJob (started.work job).2) f := by
  obtain ⟨chain, context, channel, outer, owner, gs, es, hlives, hcontext⟩ := h
  refine ⟨chain, context, channel, outer, owner, ?_⟩
  have htold := (hlives.does hstart).told
  cases hdone : (started.turn job).2 with
  | continues later =>
    rw [hdone] at hnext
    cases hnext
    exact ⟨_, _, .goes hlives hstart hdone htold, hcontext⟩
  | suspended s plan =>
    rw [hdone] at hnext
    cases hnext
    exact ⟨_, _, .defers hlives hstart hdone htold, hcontext⟩
  | ended result =>
    rw [hdone] at hnext
    cases hnext
  | escaped =>
    rw [hdone] at hnext
    cases hnext

theorem Stirs.traces (h : m.Stirs m') (hm : m.Sane) (hsettings : m.settings = settings)
    (hall : ∀ f, m.Holds f → Traces settings m f) (hf : m'.Holds f) : Traces settings m' f := by
  have hsane := h.sane hm
  have hsettings' := (h.settings_eq hm).trans hsettings
  have hidle : m.Holds f → Traces settings m' f := by
    intro hold
    obtain ⟨chain, context, channel, outer, owner, gs, es, hlives, hcontext⟩ := hall f hold
    exact ⟨chain, context, channel, outer, owner, gs, es,
      .idles hlives h (mem_inFlight_iff.mpr hf), hcontext⟩
  cases h with
  | @work job started hstart =>
    have hfit := hm.fits_startJob? hstart
    obtain hold | hnext | ⟨d, chain, rfl⟩ :=
      holds_of_work hfit ((sameWork_endJob (started.work job).2).holds hf)
    . exact hidle (holds_of_holds_started hstart hold)
    . exact (hall _ (holds_of_startJob? hstart)).work hstart hnext
    . exact .of_setsOut hsane hsettings' hf (setsOut_start d chain)
  | @wake before after timer s closes outer r now htimers halarm =>
    have hwake : m.Stirs ({ m with timers := before ++ after, clock := now }.ring timer.alarm) :=
      .wake now htimers halarm
    obtain ⟨rest, hbefore, hafter⟩ := inFlight_ring_of_registered now htimers halarm
    have hmem := mem_inFlight_iff.mpr hf
    rw [hafter] at hmem
    cases Multiset.mem_add.mp hmem with
    | inl hother =>
      apply hidle
      apply mem_inFlight_iff.mp
      rw [hbefore]
      exact Multiset.mem_add.mpr (.inl hother)
    | inr hwoken =>
      have hparked : m.Holds (.parked s closes outer r) := by
        apply mem_inFlight_iff.mp
        rw [hbefore]
        exact Multiset.mem_add.mpr (.inr (Multiset.mem_singleton_self _))
      obtain ⟨chain, context, channel, o, owner, gs, es, hlives, hcontext⟩ := hall _ hparked
      cases Multiset.mem_singleton.mp hwoken
      exact ⟨chain, context, channel, o, owner, gs, es,
        .wakes hlives hwake (mem_inFlight_iff.mpr hf), hcontext⟩
  | @failPage channel page context e hc =>
    have hacts := @acts_runFailedPage m (fun _ => False) channel page context e
    exact hidle (hacts.holds_of_nobody hf)
  | calm hcalm =>
    cases hcalm.setsOut hf with
    | inl hold => exact hidle hold
    | inr hnew => exact .of_setsOut hsane hsettings' hf hnew

theorem Stirred.settings_eq (h : Stirred settings m) : m.settings = settings := by
  induction h with
  | new pages decorators => rfl
  | next hbefore hnext ih => exact (hnext.settings_eq hbefore.sane).trans ih

/-- Whatever happens, the way of every run that is not over is known from its beginning. -/
theorem Stirred.traces (h : Stirred settings m) (hf : m.Holds f) : Traces settings m f := by
  induction h generalizing f with
  | new pages decorators => exact absurd hf not_holds_new
  | next hbefore hnext ih =>
    exact hnext.traces hbefore.sane hbefore.settings_eq (fun f hf => ih hf) hf

end Beginning

end Machine

end PageDispatch
