import Mathlib.Data.List.Forall2
import PageDispatch.Proofs.Run.Lifetime

/-!
This module contains that it makes no difference whether a unit decides at once or defers its
decision. Chains whose units make the same edits and come to the same decisions have the same
stories.
-/

namespace PageDispatch

/-- What a unit decides in the end. -/
inductive Decision where
  | outcome (o : Outcome)
  | failure (f : UnitFailure)

namespace Decision

def ruling (unit : String) (position : Nat) (own : Accumulator) : Decision → Ruling
  | outcome o => .decides unit position o own
  | failure f => .fails unit (some position) f own

end Decision

namespace UnitWork

/--
The decision of a unit and what it wrote until then. What comes with the resolution of a deferral is
written over what the unit wrote before.
-/
def decision (w : UnitWork) : Decision × Accumulator :=
  match w.ending with
  | .decided outcome => (.outcome outcome, w.response)
  | .failed e => (.failure (.error e), w.response)
  | .panicked payload => (.failure (.panic payload.message), w.response)
  | .deferred plan =>
    match plan.resolved with
    | .ok ⟨outcome, some more⟩ => (.outcome outcome, w.response.merge more)
    | .ok ⟨outcome, none⟩ => (.outcome outcome, w.response)
    | .error .abandoned => (.failure .noOutcome, w.response)
    | .error (.failed e) => (.failure (.error e), w.response)

/-- The same work, decided at once, unless the deferral is never resolved. -/
def prompt (w : UnitWork) : UnitWork :=
  match w.ending with
  | .deferred plan =>
    match plan.resolved with
    | .ok ⟨outcome, some more⟩ =>
      { w with response := w.response.merge more, ending := .decided outcome }
    | .ok ⟨outcome, none⟩ => { w with ending := .decided outcome }
    | .error .abandoned => w
    | .error (.failed e) => { w with ending := .failed e }
  | _ => w

theorem decision_prompt (w : UnitWork) : w.prompt.decision = w.decision := by
  obtain ⟨actions, response, edits, ending⟩ := w
  match ending with
  | .decided outcome => rfl
  | .failed e => rfl
  | .panicked payload => rfl
  | .deferred ⟨after, closes, .ok ⟨outcome, some more⟩⟩ => rfl
  | .deferred ⟨after, closes, .ok ⟨outcome, none⟩⟩ => rfl
  | .deferred ⟨after, closes, .error .abandoned⟩ => rfl
  | .deferred ⟨after, closes, .error (.failed e)⟩ => rfl

theorem edits_prompt (w : UnitWork) : w.prompt.edits = w.edits := by
  unfold prompt
  split
  . split <;> rfl
  . rfl

theorem ruling_resolved (w : UnitWork) (unit : String) (position : Nat) :
    (w.ending.ruling unit position w.response).resolved
      =
    w.decision.1.ruling unit position w.decision.2 := by
  obtain ⟨actions, response, edits, ending⟩ := w
  match ending with
  | .decided outcome => rfl
  | .failed e => rfl
  | .panicked payload => rfl
  | .deferred ⟨after, closes, .ok ⟨outcome, some more⟩⟩ => rfl
  | .deferred ⟨after, closes, .ok ⟨outcome, none⟩⟩ => rfl
  | .deferred ⟨after, closes, .error .abandoned⟩ => rfl
  | .deferred ⟨after, closes, .error (.failed e)⟩ => rfl

end UnitWork

/-- The same unit, but one that decides at once. -/
def HandlerUnit.prompt (u : HandlerUnit) : HandlerUnit where
  name := u.name
  evaluate view := (u.evaluate view).prompt

section Relations

variable (R : HandlerUnit → HandlerUnit → Prop)

inductive ChainElement.Rel : ChainElement → ChainElement → Prop
  | unit {u u' : HandlerUnit} (h : R u u') : Rel (.unit u) (.unit u')
  | spec (s : UnitSpec) : Rel (.spec s) (.spec s)

inductive RemnantEdit.Rel : RemnantEdit → RemnantEdit → Prop
  | insertNext {element element' : ChainElement} (h : element.Rel R element') :
    Rel (.insertNext element) (.insertNext element')
  | append {element element' : ChainElement} (h : element.Rel R element') :
    Rel (.append element) (.append element')

structure Remnant.Rel (r r' : Remnant) : Prop where
  pending : List.Forall₂ (ChainElement.Rel R) r.pending r'.pending
  cursor : r'.cursor = r.cursor

/-- Whether related units decide alike and edit the chain alike, up to units that are related. -/
structure Transparent : Prop where
  name : ∀ {u u' : HandlerUnit}, R u u' → u'.name = u.name
  decision : ∀ {u u' : HandlerUnit}, R u u' → ∀ view,
    (u'.evaluate view).decision = (u.evaluate view).decision
  edits : ∀ {u u' : HandlerUnit}, R u u' → ∀ view,
    List.Forall₂ (RemnantEdit.Rel R) (u.evaluate view).edits (u'.evaluate view).edits

end Relations

/-- Whether two units differ in nothing but how and when they decide. -/
def HandlerUnit.Matches (u u' : HandlerUnit) : Prop :=
  ∃ R : HandlerUnit → HandlerUnit → Prop, Transparent R ∧ R u u'

structure HandlerChain.Matches (c c' : HandlerChain) : Prop where
  name : c'.name = c.name
  elements : List.Forall₂ (ChainElement.Rel HandlerUnit.Matches) c.elements c'.elements

structure Settings.Matches (settings settings' : Settings) : Prop where
  codec : settings'.codec = settings.codec
  hook : settings'.hook = settings.hook
  exposeDetails : settings'.exposeDetails = settings.exposeDetails
  made : ∀ (run run' : Run) (spec : UnitSpec), run'.context = run.context →
    (∃ e, run.made settings spec = .error e ∧ run'.made settings' spec = .error e) ∨
    ∃ u u', run.made settings spec = .ok u ∧ run'.made settings' spec = .ok u' ∧ u.Matches u'

/-- Whether two runs are at the same point of chains that match. -/
structure Run.Matches (run run' : Run) : Prop where
  page : run'.page = run.page
  context : run'.context = run.context
  line : run'.outer = run'.channel ↔ run.outer = run.channel
  remnant : run.remnant.Rel HandlerUnit.Matches run'.remnant
  response : run'.response = run.response
  locked : run'.locked = run.locked
  evaluated : run'.evaluated = run.evaluated

/-- An event without the dispatch that it belongs to. -/
def Event.unowned : Event → Event
  | instantiating _ spec => .instantiating none spec
  | evaluating _ position unit view => .evaluating none position unit view
  | reporting _ report => .reporting none report
  | other => other

inductive Progress.Matches : Progress → Progress → Prop
  | continues {run run' : Run} (h : run.Matches run') : Matches (.continues run) (.continues run')
  | ended (result : ChainResult) : Matches (.ended result) (.ended result)
  | escaped : Matches .escaped .escaped

structure Forecast.Matches (f f' : Forecast) : Prop where
  events : f'.events.map Event.unowned = f.events.map Event.unowned
  progress : f.progress.Matches f'.progress

structure Stance.Matches (t t' : Stance) : Prop where
  events : t'.events.map Event.unowned = t.events.map Event.unowned
  run : t.run.Matches t'.run
  ruling : t'.ruling.resolved = t.ruling.resolved

section Relations

variable {R S : HandlerUnit → HandlerUnit → Prop} {u u' : HandlerUnit}

theorem ChainElement.Rel.mono (h : ∀ {u u' : HandlerUnit}, R u u' → S u u')
    {element element' : ChainElement} (hrel : element.Rel R element') : element.Rel S element' := by
  cases hrel with
  | unit hu => exact .unit (h hu)
  | spec s => exact .spec s

theorem RemnantEdit.Rel.mono (h : ∀ {u u' : HandlerUnit}, R u u' → S u u')
    {edit edit' : RemnantEdit} (hrel : edit.Rel R edit') : edit.Rel S edit' := by
  cases hrel with
  | insertNext he => exact .insertNext (he.mono h)
  | append he => exact .append (he.mono h)

theorem ChainElement.Rel.refl (h : ∀ u, R u u) (element : ChainElement) :
    element.Rel R element := by
  cases element with
  | unit u => exact .unit (h u)
  | spec s => exact .spec s

theorem RemnantEdit.Rel.refl (h : ∀ u, R u u) (edit : RemnantEdit) : edit.Rel R edit := by
  cases edit with
  | insertNext element => exact .insertNext (.refl h element)
  | append element => exact .append (.refl h element)

/-- What matches is itself related as it should be: it is the largest such relation. -/
theorem transparent_matches : Transparent HandlerUnit.Matches where
  name := by
    rintro u u' ⟨R, hR, h⟩
    exact hR.name h
  decision := by
    rintro u u' ⟨R, hR, h⟩
    exact hR.decision h
  edits := by
    rintro u u' ⟨R, hR, h⟩ view
    apply (hR.edits h view).imp
    intro edit edit' hedit
    exact hedit.mono fun hu => ⟨R, hR, hu⟩

theorem transparent_prompt : Transparent fun u u' => u' = u ∨ u' = u.prompt where
  name h := by
    obtain rfl | rfl := h <;> rfl
  decision h view := by
    obtain rfl | rfl := h
    . rfl
    . apply UnitWork.decision_prompt
  edits {u u'} h view := by
    have hedits : (u'.evaluate view).edits = (u.evaluate view).edits := by
      obtain rfl | rfl := h
      . rfl
      . apply UnitWork.edits_prompt
    rw [hedits]
    exact List.forall₂_same.mpr fun edit _ => .refl (fun _ => .inl rfl) edit

theorem HandlerUnit.matches_prompt (u : HandlerUnit) : u.Matches u.prompt :=
  ⟨_, transparent_prompt, .inr rfl⟩

theorem Remnant.Rel.edit {r r' : Remnant} (h : r.Rel R r') {edit edit' : RemnantEdit}
    (hedit : edit.Rel R edit') : (r.edit edit).Rel R (r'.edit edit') := by
  cases hedit with
  | insertNext he =>
    constructor
    . dsimp only [Remnant.edit, Remnant.insertNext]
      rw [h.cursor]
      exact List.rel_append (List.forall₂_take _ h.pending)
        (.cons he (List.forall₂_drop _ h.pending))
    . exact congrArg (· + 1) h.cursor
  | append he =>
    constructor
    . exact List.rel_append h.pending (.cons he .nil)
    . exact h.cursor

theorem Remnant.Rel.edits {r r' : Remnant} (h : r.Rel R r') {edits edits' : List RemnantEdit}
    (hedits : List.Forall₂ (RemnantEdit.Rel R) edits edits') :
    (edits.foldl .edit r).Rel R (edits'.foldl .edit r') := by
  induction hedits generalizing r r' with
  | nil => exact h
  | cons hedit _ ih => exact ih (h.edit hedit)

theorem Remnant.Rel.describe_eq (hname : ∀ {u u' : HandlerUnit}, R u u' → u'.name = u.name)
    {r r' : Remnant} (h : r.Rel R r') : r'.describe = r.describe := by
  obtain ⟨pending, cursor⟩ := r
  obtain ⟨pending', cursor'⟩ := r'
  have hpending : List.Forall₂ (ChainElement.Rel R) pending pending' := h.pending
  clear h
  unfold Remnant.describe
  dsimp only
  induction hpending with
  | nil => rfl
  | cons helement _ ih =>
    rw [List.map_cons, List.map_cons, ih]
    cases helement with
    | unit hu => exact congrArg (· :: _) (hname hu)
    | spec s => rfl

end Relations

namespace Run.Matches

variable {settings settings' : Settings} {run run' : Run}

theorem view_eq (h : run.Matches run') : run'.view = run.view := by
  unfold Run.view
  rw [h.context, h.response, h.remnant.describe_eq transparent_matches.name]

theorem report_eq (h : run.Matches run') (unit : String) (position : Option Nat)
    (failure : UnitFailure) :
    run'.report unit position failure = run.report unit position failure := by
  unfold Run.report
  rw [h.page, h.context]

theorem answer_eq (h : run.Matches run') (own : Accumulator) (unit : String)
    (position : Option Nat) (kind : OutcomeKind) (fatal : Option FatalFailure) :
    run'.answer own unit position kind fatal = run.answer own unit position kind fatal := by
  unfold Run.answer Run.record
  dsimp only
  rw [h.page, h.response]

theorem attachEncoded_eq (h : run.Matches run') (own : Accumulator) (e : EncodedMessage) :
    run'.attachEncoded own e = run.attachEncoded own e := by
  unfold Run.attachEncoded Run.hasContentType
  rw [h.response]

theorem past (h : run.Matches run') {remnant remnant' : Remnant}
    (hremnant : remnant.Rel HandlerUnit.Matches remnant') :
    (run.past remnant).Matches (run'.past remnant') where
  page := h.page
  context := h.context
  line := h.line
  remnant := hremnant
  response := h.response
  locked := h.locked
  evaluated := congrArg (· + 1) h.evaluated

theorem edited (h : run.Matches run') {edits edits' : List RemnantEdit}
    (hedits : List.Forall₂ (RemnantEdit.Rel HandlerUnit.Matches) edits edits') :
    (run.edited edits).Matches (run'.edited edits') where
  page := h.page
  context := h.context
  line := h.line
  remnant := h.remnant.edits hedits
  response := h.response
  locked := h.locked
  evaluated := h.evaluated

theorem consume (h : run.Matches run') (own : Accumulator) (objects : List ContextObject)
    (locked : Bool) :
    (run.consume own objects locked).Matches (run'.consume own objects locked) where
  page := h.page
  context := congrArg (·.extended objects) h.context
  line := h.line
  remnant := h.remnant
  response := congrArg (·.merge own) h.response
  locked := congrArg (· || locked) h.locked
  evaluated := h.evaluated

theorem abandoning (h : run.Matches run') : run.abandoning.Matches run'.abandoning := by
  unfold Run.abandoning
  rw [h.evaluated]
  exact ⟨rfl, .ended _⟩

theorem failing (hs : settings.Matches settings') (h : run.Matches run') (unit : String)
    (position : Option Nat) (failure : UnitFailure) (own : Accumulator) :
    (run.failing settings unit position failure own).Matches
      (run'.failing settings' unit position failure own) := by
  unfold Run.failing Run.failed Run.failureAnswer
  rw [hs.hook, hs.exposeDetails, h.report_eq]
  constructor
  case events => rfl
  case progress =>
    dsimp only
    rw [h.answer_eq]
    exact .ended _

theorem responding (hs : settings.Matches settings') (h : run.Matches run') (unit : String)
    (position : Nat) (status : Status) (message : Option ResponseMessage) (own : Accumulator) :
    (run.responding settings unit position status message own).Matches
      (run'.responding settings' unit position status message own) := by
  let answered (run : Run) (own : Accumulator) : Forecast :=
    ⟨[], .ended (.answered (run.answer own unit (some position) .respondWith none))⟩
  have hanswered : ∀ own, (answered run own).Matches (answered run' own) := by
    intro own
    dsimp only [answered]
    rw [h.answer_eq]
    exact ⟨rfl, .ended _⟩
  unfold Run.responding
  rw [hs.codec]
  dsimp only
  split
  . apply hanswered
  . apply hanswered
  . split
    . rw [h.attachEncoded_eq]
      apply hanswered
    . exact h.failing hs _ _ _ _
    . exact ⟨rfl, .escaped⟩

theorem applying (hs : settings.Matches settings') (h : run.Matches run') (unit : String)
    (position : Nat) (outcome : Outcome) (own : Accumulator) :
    (run.applying settings unit position outcome own).Matches
      (run'.applying settings' unit position outcome own) := by
  unfold Run.applying
  cases outcome with
  | rejected =>
    dsimp only
    rw [h.locked, h.evaluated]
    split
    . exact h.failing hs _ _ _ _
    . exact ⟨rfl, .ended _⟩
  | consumed objects locked => exact ⟨rfl, .continues (h.consume own objects locked)⟩
  | respondWith status message => exact h.responding hs _ _ _ _ _

theorem silenced_eq (hs : settings.Matches settings') (h : run.Matches run') (outcome : Outcome) :
    run'.silenced settings' outcome = run.silenced settings outcome := by
  unfold Run.silenced
  rw [hs.codec, decide_eq_decide.mpr h.line]

theorem taking (hs : settings.Matches settings') (h : run.Matches run') (isOpen : Bool)
    {v : Ruling} (hv : ∀ unit position own plan, v ≠ .defers unit position own plan) :
    (run.taking settings isOpen v).Matches (run'.taking settings' isOpen v) := by
  cases v with
  | decides unit position outcome own =>
    unfold Run.taking
    dsimp only
    rw [h.silenced_eq hs]
    split
    . exact h.applying hs _ _ _ _
    . exact h.abandoning
  | fails unit position failure own =>
    cases isOpen with
    | true => exact h.failing hs _ _ _ _
    | false => exact h.abandoning
  | defers unit position own plan => exact absurd rfl (hv unit position own plan)
  | runsOut =>
    unfold Run.taking
    rw [h.evaluated]
    exact ⟨rfl, .ended _⟩
  | escapes => exact ⟨rfl, .escaped⟩

theorem standing (h : run.Matches run') (position : Nat) {u u' : HandlerUnit} (hu : u.Matches u') :
    (run.standing position u).Matches (run'.standing position u') := by
  unfold Run.standing
  rw [transparent_matches.name hu]
  cases u.name with
  | error payload => exact ⟨rfl, h, rfl⟩
  | ok name =>
    dsimp only
    constructor
    case events =>
      rw [h.view_eq]
      rfl
    case run =>
      rw [h.view_eq]
      exact h.edited (transparent_matches.edits hu run.view)
    case ruling =>
      rw [h.view_eq, UnitWork.ruling_resolved, UnitWork.ruling_resolved,
        transparent_matches.decision hu]

theorem facing (hs : settings.Matches settings') (h : run.Matches run') (position : Nat)
    {element element' : ChainElement} (helement : element.Rel HandlerUnit.Matches element') :
    (run.facing settings position element).Matches (run'.facing settings' position element') := by
  cases helement with
  | unit hu => exact h.standing position hu
  | spec spec =>
    unfold Run.facing
    dsimp only
    obtain ⟨e, hmade, hmade'⟩ | ⟨u, u', hmade, hmade', hu⟩ := hs.made run run' spec h.context
    . rw [hmade, hmade']
      exact ⟨rfl, h, rfl⟩
    . rw [hmade, hmade']
      have hstanding := h.standing position hu
      constructor
      case events => exact congrArg (_ :: ·) hstanding.events
      case run => exact hstanding.run
      case ruling => exact hstanding.ruling

theorem stance (hs : settings.Matches settings') (h : run.Matches run') :
    (run.stance settings).Matches (run'.stance settings') := by
  have hpending := h.remnant.pending
  unfold Run.stance Remnant.next?
  generalize run.remnant.pending = pending at hpending
  generalize run'.remnant.pending = pending' at hpending
  cases hpending with
  | nil =>
    dsimp only
    rw [h.locked]
    exact ⟨rfl, h, rfl⟩
  | cons helement hrest =>
    have hremnant : Remnant.Rel HandlerUnit.Matches ⟨_, 0⟩ ⟨_, 0⟩ := ⟨hrest, rfl⟩
    dsimp only
    rw [h.evaluated]
    exact (h.past hremnant).facing hs _ helement

theorem passing (hs : settings.Matches settings') (h : run.Matches run') (g : Glance) :
    (run.passing settings g).Matches (run'.passing settings' g) := by
  cases g with
  | unseen => exact h.abandoning
  | seen isOpen =>
    have hstance := h.stance hs
    have htaking := hstance.run.taking hs isOpen
      (fun unit position own plan => @resolved_ne_defers plan unit position own
        (run.stance settings).ruling)
    unfold Run.passing Stance.taken
    dsimp only
    rw [hstance.ruling]
    constructor
    case events => rw [List.map_append, List.map_append, hstance.events, htaking.events]
    case progress => exact htaking.progress

theorem story (hs : settings.Matches settings') (h : run.Matches run') (gs : List Glance) :
    (run.story settings gs).Matches (run'.story settings' gs) := by
  induction gs generalizing run run' with
  | nil => exact ⟨rfl, .continues h⟩
  | cons g rest ih =>
    have hpassing := h.passing hs g
    unfold Run.story
    generalize run.passing settings g = f at hpassing
    generalize run'.passing settings' g = f' at hpassing
    obtain ⟨es, p⟩ := f
    obtain ⟨es', p'⟩ := f'
    obtain ⟨hevents, hprogress⟩ := hpassing
    cases hprogress with
    | continues hlater =>
      have hrest := ih hlater
      constructor
      . dsimp only [Forecast.prepend] at hevents ⊢
        rw [List.map_append, List.map_append, hevents, hrest.events]
      . exact hrest.progress
    | ended result => exact ⟨hevents, .ended result⟩
    | escaped => exact ⟨hevents, .escaped⟩

end Run.Matches

theorem Run.matches_ofChain {chain chain' : HandlerChain} (h : chain.Matches chain')
    {channel outer channel' outer' : ChannelId} (hline : outer' = channel' ↔ outer = channel)
    (context : Context) (owner owner' : Owner) :
    (Run.ofChain chain context channel outer owner).Matches
      (.ofChain chain' context channel' outer' owner') where
  page := h.name
  context := rfl
  line := hline
  remnant := ⟨h.elements, rfl⟩
  response := rfl
  locked := rfl
  evaluated := rfl

theorem HandlerUnit.matches_refl (u : HandlerUnit) : u.Matches u :=
  ⟨_, transparent_prompt, .inl rfl⟩

theorem HandlerChain.matches_prompt (name : String) (before after : List ChainElement)
    (u : HandlerUnit) :
    HandlerChain.Matches ⟨name, before ++ .unit u :: after⟩
      ⟨name, before ++ .unit u.prompt :: after⟩ where
  name := rfl
  elements := by
    have hsame : ∀ elements : List ChainElement,
        List.Forall₂ (ChainElement.Rel HandlerUnit.Matches) elements elements := by
      intro elements
      exact List.forall₂_same.mpr fun element _ => .refl HandlerUnit.matches_refl element
    exact List.rel_append (hsame before) (.cons (.unit u.matches_prompt) (hsame after))

theorem Settings.matches_refl (settings : Settings) : settings.Matches settings where
  codec := rfl
  hook := rfl
  exposeDetails := rfl
  made run run' spec hcontext := by
    have hmade : run'.made settings spec = run.made settings spec := by
      unfold Run.made
      rw [hcontext]
    rw [hmade]
    cases run.made settings spec with
    | error e => exact .inl ⟨e, rfl, rfl⟩
    | ok u => exact .inr ⟨u, u, rfl, rfl, u.matches_refl⟩

theorem Run.stance_of_takes {settings : Settings} {run taken : Run} {u : HandlerUnit}
    (h : run.Takes settings u taken) :
    ∃ before, (∀ e ∈ before, e.isEffort = true) ∧
      run.stance settings
        =
      { taken.standing run.evaluated u with
        events := before ++ (taken.standing run.evaluated u).events } := by
  cases h with
  | @unit _ remnant hnext =>
    refine ⟨[], List.forall_mem_nil _, ?_⟩
    unfold Run.stance
    rw [hnext]
    rfl
  | @spec spec _ remnant hnext hmade =>
    refine ⟨[.instantiating run.owner.id? spec], ?_, ?_⟩
    . intro e he
      rw [List.mem_singleton.mp he]
      rfl
    . unfold Run.stance
      rw [hnext]
      dsimp only [Run.facing]
      rw [hmade]
      rfl

/-- A unit whose deferral is dropped fails for the lack of an outcome. -/
theorem Run.passing_of_dropped {settings : Settings} {run taken : Run} {u : HandlerUnit}
    {name : String} {plan : DeferralPlan} (h : run.Takes settings u taken)
    (hname : u.name = .ok name) (hend : (u.evaluate taken.view).ending = .deferred plan)
    (hdropped : plan.resolved = .error .abandoned) (isOpen : Bool) :
    ∃ before, (∀ e ∈ before, e.isEffort = true) ∧
      run.passing settings (.seen isOpen)
        =
      ((taken.edited (u.evaluate taken.view).edits).taking settings isOpen
        (.fails name (some run.evaluated) .noOutcome (u.evaluate taken.view).response)).prepend
          before := by
  obtain ⟨before, hbefore, hstance⟩ := Run.stance_of_takes h
  refine ⟨before ++ [.evaluating taken.owner.id? run.evaluated name taken.view], ?_, ?_⟩
  . intro e he
    cases List.mem_append.mp he with
    | inl hmem => exact hbefore e hmem
    | inr hlast =>
      rw [List.mem_singleton.mp hlast]
      rfl
  . have hruling : ((u.evaluate taken.view).ending.ruling name run.evaluated
        (u.evaluate taken.view).response).resolved
        = .fails name (some run.evaluated) .noOutcome (u.evaluate taken.view).response := by
      rw [hend, UnitEnding.ruling, Ruling.resolved, hdropped]
      rfl
    unfold Run.passing
    rw [hstance]
    unfold Run.standing
    rw [hname]
    dsimp only
    rw [hruling]
    rfl

namespace Machine

/--
A unit that defers gives a run the same course as one that decides at once with what the resolution
brings: as long as the jobs see the same of the channel, they evaluate the same units with the same
views and make the same reports, and the run is completed with the same result.
-/
theorem Ends.transparent_of_deferral :
    (∀ name before u after, HandlerChain.Matches ⟨name, before ++ .unit u :: after⟩
      ⟨name, before ++ .unit (HandlerUnit.prompt u) :: after⟩) ∧
    (∀ settings settings' chain chain' context channel outer channel' outer' owner owner' gs es es'
      p p' result result',
      Settings.Matches settings settings' → HandlerChain.Matches chain chain' →
      (outer' = channel' ↔ outer = channel) →
      Ends settings (.ofChain chain context channel outer owner) gs es p result →
      Ends settings' (.ofChain chain' context channel' outer' owner') gs es' p' result' →
      es'.map Event.unowned = es.map Event.unowned ∧ p' = p ∧ result' = result) ∧
    (∀ settings run taken u name plan isOpen es p result,
      Run.Takes settings run u taken → u.name = .ok name →
      (u.evaluate taken.view).ending = .deferred plan → plan.resolved = .error .abandoned →
      Ends settings run [.seen isOpen] es p result →
      ∃ before, (∀ e ∈ before, e.isEffort = true) ∧
        (⟨es, p⟩ : Forecast)
          =
        ((taken.edited (u.evaluate taken.view).edits).taking settings isOpen
          (.fails name (some run.evaluated) .noOutcome (u.evaluate taken.view).response)).prepend
            before) ∧
    (∀ settings first m m' f gs es, Lives settings first m f gs es → m.Stirs m' →
      (∃ f' gs' es', Lives settings first m' f' gs' es') ∨
      ∃ gs' es' p result, Ends settings first gs' es' p result) := by
  refine ⟨fun name before u after => HandlerChain.matches_prompt name before after u, ?_, ?_, ?_⟩
  . intro settings settings' chain chain' context channel outer channel' outer' owner owner' gs es
      es' p p' result result' hs hchain hline h h'
    have hstory := (Run.matches_ofChain hchain hline context owner owner').story hs gs
    rw [h.story_eq, h'.story_eq] at hstory
    have hp : p' = p := by
      have hresult := h.result_eq
      cases hstory.progress with
      | continues hrun => cases hresult
      | ended result => rfl
      | escaped => rfl
    refine ⟨hstory.events, hp, ?_⟩
    have hresult := h'.result_eq
    rw [hp] at hresult
    exact Option.some.inj (hresult.symm.trans h.result_eq)
  . intro settings run taken u name plan isOpen es p result htakes hname hend hdropped h
    obtain ⟨before, hbefore, hpassing⟩ := Run.passing_of_dropped htakes hname hend hdropped isOpen
    refine ⟨before, hbefore, ?_⟩
    rw [← h.story_eq, story_singleton, hpassing]
  . intro settings first m m' f gs es h hstirs
    exact h.next hstirs

/-- A unit that tags the response, waits, and tags it once more when it goes on. -/
def patientUnit : HandlerUnit where
  name := .ok "Wait"
  evaluate _ := ⟨[], .insertRaw .empty .contentType Response.plainText, [],
    .deferred ⟨some 5, false,
      .ok ⟨.consumed [] false, some (.setMessage .empty (Utf8.encode "patience"))⟩⟩⟩

def forgetfulUnit : HandlerUnit where
  name := .ok "Forget"
  evaluate _ := ⟨[], .empty, [], .deferred ⟨some 5, false, .error .abandoned⟩⟩

def answeringUnit : HandlerUnit where
  name := .ok "Answer"
  evaluate _ := .decide (.respondWith .ok none)

def answering (u : HandlerUnit) (steps : Nat) : Machine :=
  running .plain [.unit u, .unit answeringUnit] steps

def answeringRun (u : HandlerUnit) : Run :=
  .ofChain ⟨"chain", [.unit u, .unit answeringUnit]⟩ (.forRequest (.new .zero .get "/")) 0 0 .caller

theorem lives_answering (u : HandlerUnit) :
    Lives .plain (answeringRun u) (answering u 0) (.queued (.step (answeringRun u))) [] [] :=
  .starts (reachable_running .plain _ 0).sane.1 rfl (Multiset.mem_coe.mpr List.mem_cons_self)

theorem ends_of_prompt : ∃ es p result,
    Ends .plain (answeringRun patientUnit.prompt) [.seen true, .seen true] es p result := by
  have h0 := lives_answering patientUnit.prompt
  have h1 := Lives.goes h0 rfl rfl (h0.does rfl).told
  exact ⟨_, _, _, .intro h1 rfl rfl (h1.does rfl).told⟩

theorem ends_of_patient :
    ∃ es p result, Ends .plain (answeringRun patientUnit) [.seen true, .seen true] es p result := by
  have h0 := lives_answering patientUnit
  have h1 := Lives.defers h0 rfl rfl (h0.does rfl).told
  have h2 := Lives.wakes h1 (.wake 5 rfl rfl) (Multiset.mem_coe.mpr List.mem_cons_self)
  have h3 := Lives.goes h2 rfl rfl (h2.does rfl).told
  exact ⟨_, _, _, .intro h3 rfl rfl (h3.does rfl).told⟩

theorem ends_of_forgetful :
    ∃ es p result, Ends .plain (answeringRun forgetfulUnit) [.seen true] es p result := by
  have h0 := lives_answering forgetfulUnit
  have h1 := Lives.defers h0 rfl rfl (h0.does rfl).told
  have h2 := Lives.wakes h1 (.wake 5 rfl rfl) (Multiset.mem_coe.mpr List.mem_cons_self)
  exact ⟨_, _, _, .intro h2 rfl rfl (h2.does rfl).told⟩

theorem transparent_of_patient :
    (∃ es es' p result,
      Ends .plain (answeringRun patientUnit) [.seen true, .seen true] es p result ∧
      Ends .plain (answeringRun patientUnit.prompt) [.seen true, .seen true] es' p result ∧
      es'.map Event.unowned = es.map Event.unowned) ∧
    (∃ es answer result,
      Ends .plain (answeringRun forgetfulUnit) [.seen true] es (.ended (.answered answer)) result ∧
      answer.record.kind = .failure) ∧
    ((∃ f gs es,
      Lives .plain (answeringRun patientUnit) ((answering patientUnit 0).close 0) f gs es) ∨
      ∃ gs es p result, Ends .plain (answeringRun patientUnit) gs es p result) := by
  obtain ⟨-, hsame, hdropped, hlives⟩ := Ends.transparent_of_deferral
  obtain ⟨es, p, result, h⟩ := ends_of_patient
  obtain ⟨es', p', result', h'⟩ := ends_of_prompt
  obtain ⟨lost, q, outcome, hlost⟩ := ends_of_forgetful
  have ⟨hes, hp, hresult⟩ := hsame .plain .plain _ _ _ 0 0 0 0 .caller .caller _ _ _ _ _ _ _
    (Settings.matches_refl .plain)
    (HandlerChain.matches_prompt "chain" [] [.unit answeringUnit] patientUnit) Iff.rfl h h'
  obtain ⟨before, -, heq⟩ :=
    hdropped .plain _ _ _ _ _ true _ _ _ (.unit rfl) rfl rfl rfl hlost
  subst hp hresult
  refine ⟨⟨es, es', p', result', h, h', hes⟩, ?_,
    hlives _ _ _ _ _ _ _ (lives_answering patientUnit) (.calm (.close 0))⟩
  injection heq with _ hq
  subst hq
  exact ⟨lost, _, outcome, hlost, rfl⟩

end Machine
end PageDispatch
