import PageDispatch.Proofs.Run.Deferral

/-!
This module contains what the answer for a failure depends on: what was written until then and
whether the hook panics, but neither the kind of the failure nor what it tells. Runs mirror each
other if they differ in nothing else.
-/

namespace PageDispatch

/-- A failure that a run answers for, and what the unit behind it had written. -/
structure Lapse where
  unit : String
  position : Option Nat
  failure : UnitFailure
  own : Accumulator

namespace Lapse

def report (x : Lapse) (run : Run) : FailureReport := run.report x.unit x.position x.failure

def answer (settings : Settings) (x : Lapse) (run : Run) : Answer :=
  run.failed settings x.unit x.position x.failure x.own

end Lapse

def Call.returns {α : Type} (c : Call α) : Bool := c.result.isOk

/-- Whether two attempts come to the same, the texts of errors and panics left aside. -/
inductive Attempt.Agrees {α : Type} (a a' : Attempt α) : Prop
  | returns {x : α} (h : a.result = .ok (.ok x)) (h' : a'.result = .ok (.ok x))
  | fails {e e' : CauseChain} (h : a.result = .ok (.error e)) (h' : a'.result = .ok (.error e'))
  | panics {p p' : PanicPayload} (h : a.result = .error p) (h' : a'.result = .error p')

/-- Whether no details are exposed, neither by the engine nor by its fallback. -/
structure Settings.Mirrors (settings settings' : Settings) : Prop where
  hidden : settings.exposeDetails = false
  hidden' : settings'.exposeDetails = false
  fallback : ∃ retryAfter,
    settings.fallback = .default retryAfter ∧ settings'.fallback = .default retryAfter
  codec : ∀ value, (settings.codec value).Agrees (settings'.codec value)

/-- What a ruling makes of a run whose channel stays open. -/
def Run.ruled (settings : Settings) (run : Run) : Ruling → Forecast
  | .decides unit position outcome own => run.applying settings unit position outcome own
  | .fails unit position failure own => run.failing settings unit position failure own
  | .defers unit position own plan => ⟨[], .suspended ⟨run, unit, position, own⟩ plan⟩
  | .runsOut => ⟨[], .ended (.rejected run.evaluated none)⟩
  | .escapes => ⟨[], .escaped⟩

namespace Stance

/-- The failure that comes of a ruling, if one does: a lock and the codec may turn it into one. -/
def lapse? (settings : Settings) (t : Stance) : Option Lapse :=
  match t.ruling.resolved with
  | .fails unit position failure own => some ⟨unit, position, failure, own⟩
  | .decides unit position .rejected own =>
    if t.run.locked then some ⟨unit, some position, .lockedRejection, own⟩ else none
  | .decides unit position (.respondWith status (some (.structured value))) own =>
    match (settings.codec value).result with
    | .ok (.error e) => some ⟨unit, some position, .error e, own.setStatus status⟩
    | _ => none
  | _ => none

/-- What the next job makes of the run if its channel stays open. -/
def ruled (settings : Settings) (t : Stance) : Forecast :=
  (t.run.ruled settings t.ruling).prepend t.events

/-- What becomes of the run once a deferral is resolved. -/
def settled (settings : Settings) (t : Stance) : Progress :=
  (t.run.ruled settings t.ruling.resolved).progress

/--
Whether two runs come to the same, or both to failures behind which the same was written and of
which both hooks can be told, or neither.
-/
inductive Mirrors (settings settings' : Settings) (R : Run → Run → Prop) (t t' : Stance) : Prop
  | lapses {x x' : Lapse} (h : t.lapse? settings = some x) (h' : t'.lapse? settings' = some x')
    (hown : x'.own = x.own)
    (hhook : (settings'.hook (x'.report t'.run)).returns
      = (settings.hook (x.report t.run)).returns)
  | agrees (h : t.lapse? settings = none) (h' : t'.lapse? settings' = none)
    (hruling : t'.ruling.resolved = t.ruling.resolved)
    (hlater : ∀ unit position objects locked own,
      t.ruling.resolved = .decides unit position (.consumed objects locked) own →
        R (t.run.consume own objects locked) (t'.run.consume own objects locked))

end Stance

structure Mirroring (settings settings' : Settings) (R : Run → Run → Prop) : Prop where
  response : ∀ {run run' : Run}, R run run' → run'.response = run.response
  stance : ∀ {run run' : Run}, R run run' →
    (run.stance settings).Mirrors settings settings' R (run'.stance settings')

/-- Whether two runs differ in nothing but what the failures are that they come to. -/
def Run.Mirrors (settings settings' : Settings) (run run' : Run) : Prop :=
  ∃ R : Run → Run → Prop, Mirroring settings settings' R ∧ R run run'

structure Answer.Mirrors (a a' : Answer) : Prop where
  response : a'.response = a.response
  fatal : a'.fatal.isSome = a.fatal.isSome

inductive Progress.Mirrors (R : Run → Run → Prop) : Progress → Progress → Prop
  | continues {run run' : Run} (h : R run run') : Mirrors R (.continues run) (.continues run')
  | answers {a a' : Answer} (h : a.Mirrors a') :
    Mirrors R (.ended (.answered a)) (.ended (.answered a'))
  | rejects (evaluated evaluated' : Nat) (rejecter rejecter' : Option String) :
    Mirrors R (.ended (.rejected evaluated rejecter)) (.ended (.rejected evaluated' rejecter'))
  | escapes : Mirrors R .escaped .escaped

section Rulings

variable {settings settings' : Settings} {run run' : Run} {R : Run → Run → Prop} {t t' : Stance}
  {x x' : Lapse}

theorem judging_eq (unit : String) (position : Nat) (own : Accumulator) (ending : UnitEnding) :
    run.judging settings unit position own ending
      =
    run.ruled settings (ending.ruling unit position own) := by
  cases ending <;> rfl

theorem resuming_eq (s : Suspension) (r : Resolved) :
    s.resuming settings r = s.run.ruled settings (.ofResolved s.unit s.position s.own r) := by
  match r with
  | .ok ⟨outcome, some more⟩ => rfl
  | .ok ⟨outcome, none⟩ => rfl
  | .error .abandoned => rfl
  | .error (.failed e) => rfl

theorem evaluating_eq (position : Nat) (u : HandlerUnit) :
    run.evaluating settings position u = (run.standing position u).ruled settings := by
  unfold Run.evaluating Run.standing
  cases u.name with
  | error payload => rfl
  | ok name =>
    dsimp only
    rw [judging_eq]
    rfl

theorem processing_eq (position : Nat) (element : ChainElement) :
    run.processing settings position element
      =
    (run.facing settings position element).ruled settings := by
  cases element with
  | unit u => exact evaluating_eq position u
  | spec spec =>
    unfold Run.processing Run.facing
    dsimp only
    cases run.made settings spec with
    | ok u =>
      dsimp only
      rw [evaluating_eq]
      rfl
    | error e => rfl

theorem stepping_eq : run.stepping settings = (run.stance settings).ruled settings := by
  unfold Run.stepping Run.stance
  cases run.remnant.next? with
  | none =>
    unfold Run.exhausting
    cases run.locked <;> rfl
  | some next => exact processing_eq _ _

/-- A failure is answered for as such, however it came about. -/
theorem settled_of_lapse (h : t.lapse? settings = some x) :
    t.settled settings = .ended (.answered (x.answer settings t.run)) := by
  unfold Stance.settled
  unfold Stance.lapse? at h
  split at h
  . next hruling =>
    cases h
    rw [hruling]
    rfl
  . next hruling =>
    split at h
    . next hlocked =>
      cases h
      rw [hruling]
      unfold Run.ruled Run.applying
      dsimp only
      rw [if_pos hlocked]
      rfl
    . cases h
  . next hruling =>
    split at h
    . next hcodec =>
      cases h
      rw [hruling]
      unfold Run.ruled Run.applying Run.responding
      dsimp only
      rw [hcodec]
      rfl
    . cases h
  . cases h

/-- Details are not exposed: the answer is the same for any failure after the same writings. -/
theorem answer_mirrors (hs : settings.Mirrors settings') (hresponse : run'.response = run.response)
    (hown : x'.own = x.own)
    (hhook : (settings'.hook (x'.report run')).returns = (settings.hook (x.report run)).returns) :
    (x.answer settings run).Mirrors (x'.answer settings' run') := by
  have hrender : x'.failure.render settings'.exposeDetails
      = x.failure.render settings.exposeDetails := by
    rw [hs.hidden, hs.hidden']
    rfl
  constructor
  . unfold Lapse.answer Run.failed Run.failureAnswer Run.answer
    dsimp only
    rw [hrender, hresponse, hown]
  . unfold Lapse.report Call.returns at hhook
    unfold Lapse.answer Run.failed Run.failureAnswer Run.answer
    dsimp only
    generalize (settings.hook (run.report x.unit x.position x.failure)).result = told at hhook
    generalize (settings'.hook (run'.report x'.unit x'.position x'.failure)).result = told' at hhook
    cases told <;> cases told' <;> first | rfl | cases hhook

theorem responding_mirrors (hs : settings.Mirrors settings')
    (hresponse : t'.run.response = t.run.response) {unit : String} {position : Nat}
    {status : Status} {message : Option ResponseMessage} {own : Accumulator}
    (hruling : t.ruling.resolved = .decides unit position (.respondWith status message) own)
    (h : t.lapse? settings = none) :
    Progress.Mirrors R
      (t.run.responding settings unit position status message own).progress
      (t'.run.responding settings' unit position status message own).progress := by
  have hanswer : ∀ own, (t.run.answer own unit (some position) .respondWith none).Mirrors
      (t'.run.answer own unit (some position) .respondWith none) := by
    intro own
    refine ⟨?_, rfl⟩
    unfold Run.answer
    rw [hresponse]
  unfold Stance.lapse? at h
  rw [hruling] at h
  unfold Run.responding
  match message with
  | none => exact .answers (hanswer _)
  | some (.text s) => exact .answers (hanswer _)
  | some (.structured value) =>
    dsimp only at h ⊢
    cases hs.codec value with
    | returns hcodec hcodec' =>
      rw [hcodec, hcodec']
      have hattach : t'.run.attachEncoded (own.setStatus status)
          = t.run.attachEncoded (own.setStatus status) := by
        funext e
        unfold Run.attachEncoded Run.hasContentType
        rw [hresponse]
      dsimp only
      rw [hattach]
      exact .answers (hanswer _)
    | fails hcodec hcodec' =>
      rw [hcodec] at h
      cases h
    | panics hcodec hcodec' =>
      rw [hcodec, hcodec']
      exact .escapes

theorem Stance.Mirrors.settled (hs : settings.Mirrors settings')
    (h : t.Mirrors settings settings' R t') (hresponse : t'.run.response = t.run.response) :
    Progress.Mirrors R (t.settled settings) (t'.settled settings') := by
  cases h with
  | lapses hlapse hlapse' hown hhook =>
    rw [settled_of_lapse hlapse, settled_of_lapse hlapse']
    exact .answers (answer_mirrors hs hresponse hown hhook)
  | agrees hlapse hlapse' hruling hlater =>
    unfold Stance.settled
    rw [hruling]
    unfold Stance.lapse? at hlapse'
    rw [hruling] at hlapse'
    cases hresolved : t.ruling.resolved with
    | decides unit position outcome own =>
      cases outcome with
      | consumed objects locked => exact .continues (hlater _ _ _ _ _ hresolved)
      | respondWith status message => exact responding_mirrors hs hresponse hresolved hlapse
      | rejected =>
        unfold Stance.lapse? at hlapse
        rw [hresolved] at hlapse hlapse'
        have hlocked : t.run.locked = false := by simpa using hlapse
        have hlocked' : t'.run.locked = false := by simpa using hlapse'
        unfold Run.ruled Run.applying
        dsimp only
        rw [hlocked, hlocked']
        exact .rejects _ _ _ _
    | fails unit position failure own =>
      rw [hresolved] at hlapse'
      cases hlapse'
    | defers unit position own plan =>
      have hne := @resolved_ne_defers plan unit position own t.ruling
      exact absurd hresolved hne
    | runsOut => exact .rejects _ _ _ _
    | escapes => exact .escapes

theorem Stance.Mirrors.mono {R' : Run → Run → Prop} (h : t.Mirrors settings settings' R t')
    (hR : ∀ {run run' : Run}, R run run' → R' run run') : t.Mirrors settings settings' R' t' := by
  cases h with
  | lapses hlapse hlapse' hown hhook => exact .lapses hlapse hlapse' hown hhook
  | agrees hlapse hlapse' hruling hlater =>
    apply Mirrors.agrees hlapse hlapse' hruling
    intro unit position objects locked own hresolved
    apply hR
    apply hlater _ _ _ _ _ hresolved

/-- Runs mirror each other if they come to failures now, or go on to runs that do. -/
theorem Run.mirrors_of_stance (hresponse : run'.response = run.response)
    (h : (run.stance settings).Mirrors settings settings' (Run.Mirrors settings settings')
      (run'.stance settings')) : Run.Mirrors settings settings' run run' := by
  -- the two runs can be added to any relation that the runs after them are in
  refine ⟨fun a a' => (a = run ∧ a' = run') ∨ Run.Mirrors settings settings' a a', ⟨?_, ?_⟩,
    .inl ⟨rfl, rfl⟩⟩
  . rintro a a' (⟨rfl, rfl⟩ | ⟨R, hR, h⟩)
    . exact hresponse
    . exact hR.response h
  . rintro a a' (⟨rfl, rfl⟩ | ⟨R, hR, h⟩)
    . exact h.mono .inr
    . exact (hR.stance h).mono fun h => .inr ⟨R, hR, h⟩

end Rulings

/-- Whether the hooks panic at both of two failures or at neither, in every report of them. -/
def Settings.TellsAlike (settings settings' : Settings) (f f' : UnitFailure) : Prop :=
  ∀ report : FailureReport,
    (settings'.hook { report with failure := f' }).returns
      = (settings.hook { report with failure := f }).returns

section Chains

variable (settings settings' : Settings) (R : HandlerUnit → HandlerUnit → Prop)

/-- Whether the works of two units differ in nothing but how they fail. -/
inductive UnitWork.Mirrors (w w' : UnitWork) : Prop
  | agrees (hdecision : w'.decision = w.decision)
    (hedits : List.Forall₂ (RemnantEdit.Rel R) w.edits w'.edits)
  | fails {f f' : UnitFailure} (h : w.decision.1 = .failure f) (h' : w'.decision.1 = .failure f')
    (hown : w'.decision.2 = w.decision.2) (hhook : settings.TellsAlike settings' f f')

structure Concealing : Prop where
  name : ∀ {u u' : HandlerUnit}, R u u' → u'.name = u.name
  work : ∀ {u u' : HandlerUnit}, R u u' →
    ∀ view, (u.evaluate view).Mirrors settings settings' R (u'.evaluate view)

def HandlerUnit.Mirrors (u u' : HandlerUnit) : Prop :=
  ∃ R : HandlerUnit → HandlerUnit → Prop, Concealing settings settings' R ∧ R u u'

structure HandlerChain.Mirrors (c c' : HandlerChain) : Prop where
  name : c'.name = c.name
  elements :
    List.Forall₂ (ChainElement.Rel (HandlerUnit.Mirrors settings settings')) c.elements c'.elements

/--
Whether two engines are given the same from outside, but for the failures of the codec and of the
constructors of units.
-/
structure Settings.Conceals : Prop extends settings.Mirrors settings' where
  hook : ∀ f, settings.TellsAlike settings' f f
  encodes : ∀ value e e', (settings.codec value).result = .ok (.error e) →
    (settings'.codec value).result = .ok (.error e') →
      settings.TellsAlike settings' (.error e) (.error e')
  made : ∀ (run run' : Run) (spec : UnitSpec), run'.context = run.context →
    (∃ e e', run.made settings spec = .error e ∧ run'.made settings' spec = .error e' ∧
      settings.TellsAlike settings' (.instantiation e) (.instantiation e')) ∨
    ∃ u u', run.made settings spec = .ok u ∧ run'.made settings' spec = .ok u' ∧
      u.Mirrors settings settings' u'

/-- Whether two runs are at the same point of chains that mirror each other. -/
structure Run.Abreast (run run' : Run) : Prop where
  page : run'.page = run.page
  context : run'.context = run.context
  remnant : run.remnant.Rel (HandlerUnit.Mirrors settings settings') run'.remnant
  response : run'.response = run.response
  locked : run'.locked = run.locked
  evaluated : run'.evaluated = run.evaluated

end Chains

section Chains

variable {settings settings' : Settings} {run run' : Run} {R : Run → Run → Prop} {t t' : Stance}

theorem concealing_mirrors :
    Concealing settings settings' (HandlerUnit.Mirrors settings settings') where
  name := by
    rintro u u' ⟨R, hR, h⟩
    exact hR.name h
  work := by
    rintro u u' ⟨R, hR, h⟩ view
    cases hR.work h view with
    | agrees hdecision hedits =>
      apply UnitWork.Mirrors.agrees hdecision
      apply hedits.imp
      intro edit edit' hedit
      exact hedit.mono fun hu => ⟨R, hR, hu⟩
    | fails h h' hown hhook => exact .fails h h' hown hhook

theorem concealing_eq : Concealing settings settings' Eq where
  name h := by rw [h]
  work h view := by
    rw [h]
    exact .agrees rfl (List.forall₂_same.mpr fun edit _ => .refl (fun _ => rfl) edit)

theorem HandlerUnit.mirrors_refl (u : HandlerUnit) : u.Mirrors settings settings' u :=
  ⟨_, concealing_eq, rfl⟩

/-- Units that always fail mirror each other if they write the same. -/
theorem HandlerUnit.mirrors_of_fails {u u' : HandlerUnit} (hname : u'.name = u.name)
    (h : ∀ view, ∃ f f', (u.evaluate view).decision.1 = .failure f ∧
      (u'.evaluate view).decision.1 = .failure f' ∧
      (u'.evaluate view).decision.2 = (u.evaluate view).decision.2 ∧
      settings.TellsAlike settings' f f') : u.Mirrors settings settings' u' := by
  refine ⟨fun v v' => v = u ∧ v' = u', ⟨?_, ?_⟩, rfl, rfl⟩
  . rintro v v' ⟨rfl, rfl⟩
    exact hname
  . rintro v v' ⟨rfl, rfl⟩ view
    obtain ⟨f, f', hf, hf', hown, hhook⟩ := h view
    exact .fails hf hf' hown hhook

theorem HandlerChain.mirrors_replace (name : String) (before after : List ChainElement)
    {u u' : HandlerUnit} (h : u.Mirrors settings settings' u') :
    HandlerChain.Mirrors settings settings' ⟨name, before ++ .unit u :: after⟩
      ⟨name, before ++ .unit u' :: after⟩ where
  name := rfl
  elements := by
    have hsame : ∀ elements : List ChainElement,
        List.Forall₂ (ChainElement.Rel (HandlerUnit.Mirrors settings settings'))
          elements elements := by
      intro elements
      exact List.forall₂_same.mpr fun element _ => .refl HandlerUnit.mirrors_refl element
    exact List.rel_append (hsame before) (.cons (.unit h) (hsame after))

/-- Stances on which the same is ruled mirror each other, even if the codec tells other errors. -/
theorem Stance.mirrors_of_ruling_eq (hs : settings.Conceals settings')
    (hlocked : t'.run.locked = t.run.locked)
    (hruling : t'.ruling.resolved = t.ruling.resolved)
    (hhook : ∀ unit position {f f'}, settings.TellsAlike settings' f f' →
      (settings'.hook (t'.run.report unit position f')).returns
        = (settings.hook (t.run.report unit position f)).returns)
    (hlater : ∀ unit position objects locked own,
      t.ruling.resolved = .decides unit position (.consumed objects locked) own →
        R (t.run.consume own objects locked) (t'.run.consume own objects locked)) :
    t.Mirrors settings settings' R t' := by
  have hagrees : t.lapse? settings = none → t'.lapse? settings' = none →
      t.Mirrors settings settings' R t' := fun h h' => .agrees h h' hruling hlater
  have hlapses : ∀ x x', t.lapse? settings = some x → t'.lapse? settings' = some x' →
      x'.unit = x.unit → x'.position = x.position → x'.own = x.own →
      settings.TellsAlike settings' x.failure x'.failure →
      t.Mirrors settings settings' R t' := by
    intro x x' h h' hunit hposition hown halike
    apply Mirrors.lapses h h' hown
    unfold Lapse.report
    rw [hunit, hposition]
    apply hhook _ _ halike
  unfold lapse? at hagrees hlapses
  rw [hruling] at hagrees hlapses
  cases hresolved : t.ruling.resolved with
  | decides unit position outcome own =>
    rw [hresolved] at hagrees hlapses
    match outcome with
    | .consumed objects locked => exact hagrees rfl rfl
    | .respondWith status none => exact hagrees rfl rfl
    | .respondWith status (some (.text s)) => exact hagrees rfl rfl
    | .respondWith status (some (.structured value)) =>
      dsimp only at hagrees hlapses
      cases hs.codec value with
      | returns h h' =>
        rw [h, h'] at hagrees
        exact hagrees rfl rfl
      | fails h h' =>
        have halike := hs.encodes value _ _ h h'
        rw [h, h'] at hlapses
        exact hlapses _ _ rfl rfl rfl rfl rfl halike
      | panics h h' =>
        rw [h, h'] at hagrees
        exact hagrees rfl rfl
    | .rejected =>
      dsimp only at hagrees hlapses
      rw [hlocked] at hagrees hlapses
      cases hlock : t.run.locked with
      | true =>
        rw [hlock] at hlapses
        exact hlapses _ _ rfl rfl rfl rfl rfl (hs.hook _)
      | false =>
        rw [hlock] at hagrees
        exact hagrees rfl rfl
  | fails unit position failure own =>
    rw [hresolved] at hlapses
    exact hlapses _ _ rfl rfl rfl rfl rfl (hs.hook _)
  | defers unit position own plan =>
    have hne := @resolved_ne_defers plan unit position own t.ruling
    exact absurd hresolved hne
  | runsOut =>
    rw [hresolved] at hagrees
    exact hagrees rfl rfl
  | escapes =>
    rw [hresolved] at hagrees
    exact hagrees rfl rfl

theorem lapse?_of_failure {w : UnitWork} {f : UnitFailure} {es : List Event} {unit : String}
    {position : Nat} (h : w.decision.1 = .failure f) :
    Stance.lapse? settings ⟨es, run, w.ending.ruling unit position w.response⟩
      =
    some ⟨unit, some position, f, w.decision.2⟩ := by
  unfold Stance.lapse?
  dsimp only
  rw [UnitWork.ruling_resolved, h]
  rfl

theorem Attempt.agrees_refl {α : Type} (a : Attempt α) : a.Agrees a := by
  match h : a.result with
  | .ok (.ok x) => exact .returns h h
  | .ok (.error e) => exact .fails h h
  | .error p => exact .panics h h

/-- Two dispatches of an engine are given the same from outside. -/
theorem Settings.conceals_self {retryAfter : Duration} (hidden : settings.exposeDetails = false)
    (hfallback : settings.fallback = .default retryAfter) : settings.Conceals settings where
  hidden := hidden
  hidden' := hidden
  fallback := ⟨retryAfter, hfallback, hfallback⟩
  codec value := (settings.codec value).agrees_refl
  hook f report := rfl
  encodes value e e' h h' := by
    rw [h] at h'
    cases h'
    exact fun _ => rfl
  made run run' spec hcontext := by
    have hmade : run'.made settings spec = run.made settings spec := by
      unfold Run.made
      rw [hcontext]
    rw [hmade]
    cases run.made settings spec with
    | error e => exact .inl ⟨e, e, rfl, rfl, fun _ => rfl⟩
    | ok u => exact .inr ⟨u, u, rfl, rfl, u.mirrors_refl⟩

namespace Run.Abreast

theorem past (h : run.Abreast settings settings' run') {remnant remnant' : Remnant}
    (hremnant : remnant.Rel (HandlerUnit.Mirrors settings settings') remnant') :
    (run.past remnant).Abreast settings settings' (run'.past remnant') where
  page := h.page
  context := h.context
  remnant := hremnant
  response := h.response
  locked := h.locked
  evaluated := congrArg (· + 1) h.evaluated

theorem edited (h : run.Abreast settings settings' run') {edits edits' : List RemnantEdit}
    (hedits : List.Forall₂ (RemnantEdit.Rel (HandlerUnit.Mirrors settings settings'))
      edits edits') : (run.edited edits).Abreast settings settings' (run'.edited edits') where
  page := h.page
  context := h.context
  remnant := h.remnant.edits hedits
  response := h.response
  locked := h.locked
  evaluated := h.evaluated

theorem consume (h : run.Abreast settings settings' run') (own : Accumulator)
    (objects : List ContextObject) (locked : Bool) :
    (run.consume own objects locked).Abreast settings settings'
      (run'.consume own objects locked) where
  page := h.page
  context := congrArg (·.extended objects) h.context
  remnant := h.remnant
  response := congrArg (·.merge own) h.response
  locked := congrArg (· || locked) h.locked
  evaluated := h.evaluated

theorem view_eq (h : run.Abreast settings settings' run') : run'.view = run.view := by
  unfold Run.view
  rw [h.context, h.response, h.remnant.describe_eq concealing_mirrors.name]

theorem hook_eq (h : run.Abreast settings settings' run') (unit : String) (position : Option Nat)
    {f f' : UnitFailure} (halike : settings.TellsAlike settings' f f') :
    (settings'.hook (run'.report unit position f')).returns
      =
    (settings.hook (run.report unit position f)).returns := by
  unfold report
  rw [h.page, h.context]
  apply halike ⟨_, _, _, _, f⟩

theorem mirrors_of_ruling_eq (hs : settings.Conceals settings')
    (h : t.run.Abreast settings settings' t'.run)
    (hruling : t'.ruling.resolved = t.ruling.resolved) :
    t.Mirrors settings settings' (Run.Abreast settings settings') t' := by
  apply t.mirrors_of_ruling_eq hs h.locked hruling
  . apply h.hook_eq
  . intro _ _ _ _ _ _
    apply h.consume

theorem standing (hs : settings.Conceals settings') (h : run.Abreast settings settings' run')
    (position : Nat) {u u' : HandlerUnit} (hu : u.Mirrors settings settings' u') :
    (run.standing position u).Mirrors settings settings' (Run.Abreast settings settings')
      (run'.standing position u') := by
  unfold Run.standing
  rw [concealing_mirrors.name hu, h.view_eq]
  cases u.name with
  | error payload => exact mirrors_of_ruling_eq hs h rfl
  | ok name =>
    cases concealing_mirrors.work hu run.view with
    | agrees hdecision hedits =>
      apply mirrors_of_ruling_eq hs (h.edited hedits)
      dsimp only
      rw [UnitWork.ruling_resolved, UnitWork.ruling_resolved, hdecision]
    | fails hf hf' hown hhook =>
      exact .lapses (lapse?_of_failure hf) (lapse?_of_failure hf') hown (h.hook_eq _ _ hhook)

theorem facing (hs : settings.Conceals settings') (h : run.Abreast settings settings' run')
    (position : Nat) {element element' : ChainElement}
    (helement : element.Rel (HandlerUnit.Mirrors settings settings') element') :
    (run.facing settings position element).Mirrors settings settings'
      (Run.Abreast settings settings') (run'.facing settings' position element') := by
  cases helement with
  | unit hu => exact h.standing hs position hu
  | spec spec =>
    unfold Run.facing
    dsimp only
    obtain ⟨e, e', hmade, hmade', halike⟩ | ⟨u, u', hmade, hmade', hu⟩ :=
      hs.made run run' spec h.context
    . rw [hmade, hmade']
      exact .lapses rfl rfl rfl (h.hook_eq _ _ halike)
    . rw [hmade, hmade']
      -- that a unit was made is told, and changes nothing else
      cases h.standing hs position hu with
      | lapses hlapse hlapse' hown hhook => exact .lapses hlapse hlapse' hown hhook
      | agrees hlapse hlapse' hruling hlater => exact .agrees hlapse hlapse' hruling hlater

theorem stance (hs : settings.Conceals settings') (h : run.Abreast settings settings' run') :
    (run.stance settings).Mirrors settings settings' (Run.Abreast settings settings')
      (run'.stance settings') := by
  have hpending := h.remnant.pending
  unfold Run.stance Remnant.next?
  generalize run.remnant.pending = pending at hpending
  generalize run'.remnant.pending = pending' at hpending
  cases hpending with
  | nil =>
    dsimp only
    rw [h.locked]
    exact mirrors_of_ruling_eq hs h rfl
  | cons helement hrest =>
    have hremnant : Remnant.Rel (HandlerUnit.Mirrors settings settings') ⟨_, 0⟩ ⟨_, 0⟩ :=
      ⟨hrest, rfl⟩
    dsimp only
    rw [h.evaluated]
    exact (h.past hremnant).facing hs _ helement

/-- Runs that are abreast of each other remain so until they end. -/
theorem mirrors (hs : settings.Conceals settings') (h : run.Abreast settings settings' run') :
    Run.Mirrors settings settings' run run' :=
  ⟨Run.Abreast settings settings', ⟨fun h => h.response, fun h => h.stance hs⟩, h⟩

end Run.Abreast

theorem HandlerChain.Mirrors.abreast {chain chain' : HandlerChain}
    (h : chain.Mirrors settings settings' chain') (context : Context)
    (channel outer channel' outer' : ChannelId) (owner owner' : Owner) :
    (Run.ofChain chain context channel outer owner).Abreast settings settings'
      (.ofChain chain' context channel' outer' owner') where
  page := h.name
  context := rfl
  remnant := ⟨h.elements, rfl⟩
  response := rfl
  locked := rfl
  evaluated := rfl

end Chains
end PageDispatch
