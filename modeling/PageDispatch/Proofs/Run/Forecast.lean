import PageDispatch.Proofs.Machine.Strand

/-!
This module contains what a job makes of its run by itself: it is a function of the settings, as
long as the channel stays open. A machine does the same for the run, whatever happens around it, or
it gives the run up because the channel was closed.
-/

namespace PageDispatch

structure Forecast where
  events : List Event
  progress : Progress

namespace Forecast

def after (f : Forecast) (e : Event) : Forecast := { f with events := e :: f.events }

end Forecast

namespace Run

variable (settings : Settings)

def failed (run : Run) (unit : String) (position : Option Nat) (failure : UnitFailure)
    (own : Accumulator) : Answer :=
  run.failureAnswer unit position failure own settings.exposeDetails
    (settings.hook (run.report unit position failure)).result

def failing (run : Run) (unit : String) (position : Option Nat) (failure : UnitFailure)
    (own : Accumulator) : Forecast :=
  ⟨[.reporting run.owner.id? (run.report unit position failure)],
    .ended (.answered (run.failed settings unit position failure own))⟩

def responding (run : Run) (unit : String) (position : Nat) (status : Status)
    (message : Option ResponseMessage) (own : Accumulator) : Forecast :=
  let own := own.setStatus status
  let answered (own : Accumulator) : Forecast :=
    ⟨[], .ended (.answered (run.answer own unit (some position) .respondWith none))⟩
  match message with
  | none => answered own
  | some (.text s) => answered (own.setMessage (Utf8.encode s))
  | some (.structured value) =>
    match (settings.codec value).result with
    | .ok (.ok encoded) => answered (run.attachEncoded own encoded)
    | .ok (.error e) => run.failing settings unit (some position) (.error e) own
    | .error _ => ⟨[], .escaped⟩

def applying (run : Run) (unit : String) (position : Nat) (outcome : Outcome) (own : Accumulator) :
    Forecast :=
  match outcome with
  | .rejected =>
    if run.locked then run.failing settings unit (some position) .lockedRejection own
    else ⟨[], .ended (.rejected run.evaluated (some unit))⟩
  | .consumed objects locked => ⟨[], .continues (run.consume own objects locked)⟩
  | .respondWith status message => run.responding settings unit position status message own

def exhausting (run : Run) : Forecast :=
  if run.locked then run.failing settings "<end of chain>" none .lockedExhaustion .empty
  else ⟨[], .ended (.rejected run.evaluated none)⟩

def judging (run : Run) (unit : String) (position : Nat) (own : Accumulator) :
    UnitEnding → Forecast
  | .decided outcome => run.applying settings unit position outcome own
  | .deferred plan => ⟨[], .suspended ⟨run, unit, position, own⟩ plan⟩
  | .failed e => run.failing settings unit (some position) (.error e) own
  | .panicked payload => run.failing settings unit (some position) (.panic payload.message) own

def evaluating (run : Run) (position : Nat) (u : HandlerUnit) : Forecast :=
  match u.name with
  | .error _ => ⟨[], .escaped⟩
  | .ok name =>
    let work := u.evaluate run.view
    ((run.edited work.edits).judging settings name position work.response work.ending).after
      (.evaluating run.owner.id? position name run.view)

def made (run : Run) (spec : UnitSpec) : Except CauseChain HandlerUnit :=
  match (settings.registry.instantiate [] spec run.context).1.result with
  | .ok result => result
  | .error payload => .error (.of ("constructor panicked: " ++ payload.message))

def processing (run : Run) (position : Nat) : ChainElement → Forecast
  | .unit u => run.evaluating settings position u
  | .spec spec =>
    Forecast.after
      (match run.made settings spec with
      | .ok u => run.evaluating settings position u
      | .error e => run.failing settings spec.describe (some position) (.instantiation e) .empty)
      (.instantiating run.owner.id? spec)

def stepping (run : Run) : Forecast :=
  match run.remnant.next? with
  | none => run.exhausting settings
  | some (element, remnant) => (run.past remnant).processing settings run.evaluated element

end Run

namespace Suspension

def merged (s : Suspension) (resolution : Resolution) : Accumulator :=
  match resolution.response with
  | some more => s.own.merge more
  | none => s.own

def resuming (settings : Settings) (s : Suspension) : Resolved → Forecast
  | .ok resolution =>
    s.run.applying settings s.unit s.position resolution.outcome (s.merged resolution)
  | .error .abandoned => s.run.failing settings s.unit (some s.position) .noOutcome s.own
  | .error (.failed e) => s.run.failing settings s.unit (some s.position) (.error e) s.own

end Suspension

namespace Job

def forecast (settings : Settings) : Job → Forecast
  | step run => run.stepping settings
  | resume s r => s.resuming settings r

end Job

structure Run.Precedes (run later : Run) : Prop where
  page : later.page = run.page
  channel : later.channel = run.channel
  outer : later.outer = run.outer
  owner : later.owner = run.owner
  locked : run.locked = true → later.locked = true

/-- Whether two runs differ in the elements to come only. -/
structure Run.Resembles (run other : Run) : Prop where
  page : other.page = run.page
  channel : other.channel = run.channel
  outer : other.outer = run.outer
  owner : other.owner = run.owner
  context : other.context = run.context
  response : other.response = run.response
  locked : other.locked = run.locked

def Progress.Of (run : Run) : Progress → Prop
  | .continues later => run.Precedes later
  | .suspended s _ => run.Resembles s.run
  | .ended _ | .escaped => True

namespace Run

variable {run later last : Run}

theorem Precedes.trans (h : run.Precedes later) (h' : later.Precedes last) : run.Precedes last where
  page := h'.page.trans h.page
  channel := h'.channel.trans h.channel
  outer := h'.outer.trans h.outer
  owner := h'.owner.trans h.owner
  locked := h'.locked ∘ h.locked

theorem Resembles.refl (run : Run) : run.Resembles run := ⟨rfl, rfl, rfl, rfl, rfl, rfl, rfl⟩

theorem Resembles.trans (h : run.Resembles later) (h' : later.Resembles last) :
    run.Resembles last where
  page := h'.page.trans h.page
  channel := h'.channel.trans h.channel
  outer := h'.outer.trans h.outer
  owner := h'.owner.trans h.owner
  context := h'.context.trans h.context
  response := h'.response.trans h.response
  locked := h'.locked.trans h.locked

theorem Resembles.precedes (h : run.Resembles later) : run.Precedes later :=
  ⟨h.page, h.channel, h.outer, h.owner, fun hlocked => h.locked.trans hlocked⟩

theorem resembles_past (run : Run) (remnant : Remnant) : run.Resembles (run.past remnant) :=
  ⟨rfl, rfl, rfl, rfl, rfl, rfl, rfl⟩

theorem resembles_edited (run : Run) (edits : List RemnantEdit) :
    run.Resembles (run.edited edits) :=
  ⟨rfl, rfl, rfl, rfl, rfl, rfl, rfl⟩

end Run

theorem Progress.Of.of_resembles {run other : Run} {p : Progress} (h : p.Of other)
    (hrun : run.Resembles other) : p.Of run := by
  cases p with
  | continues last => exact hrun.precedes.trans h
  | suspended s plan => exact hrun.trans h
  | ended result => trivial
  | escaped => trivial

def Event.isOfRun : Event → Bool
  | .instantiating _ _ | .evaluating _ _ _ _ | .reporting _ _ => true
  | _ => false

def Event.isEffort : Event → Bool
  | .instantiating _ _ | .evaluating _ _ _ _ => true
  | _ => false

theorem Event.isOfRun_of_isEffort {e : Event} (h : e.isEffort = true) : e.isOfRun = true := by
  cases e <;> first | rfl | cases h

/--
What every forecast of a run observes; a run whose lock is set is never rejected, and only one that
ends in an answer reports a failure.
-/
structure Forecast.Sound (run : Run) (f : Forecast) : Prop where
  events : ∀ e ∈ f.events, e.isOfRun = true
  quiet : (∀ a, f.progress ≠ .ended (.answered a)) → ∀ e ∈ f.events, e.isEffort = true
  progress : f.progress.Of run
  finishes : ∀ evaluated, f.progress ≠ .ended (.abandoned evaluated)
  lock : run.locked = true →
    ∀ evaluated rejecter, f.progress ≠ .ended (.rejected evaluated rejecter)

namespace Forecast

variable {run other : Run} {f : Forecast}

theorem Sound.of_resembles (h : f.Sound other) (hrun : run.Resembles other) : f.Sound run where
  events := h.events
  quiet := h.quiet
  progress := h.progress.of_resembles hrun
  finishes := h.finishes
  lock hlocked := h.lock (hrun.locked.trans hlocked)

theorem Sound.after {e : Event} (h : f.Sound run) (he : e.isEffort = true) :
    (f.after e).Sound run where
  events event hmem := by
    cases List.mem_cons.mp hmem with
    | inl hhead =>
      rw [hhead]
      apply Event.isOfRun_of_isEffort he
    | inr htail => exact h.events event htail
  quiet hanswered event hmem := by
    cases List.mem_cons.mp hmem with
    | inl hhead =>
      rw [hhead]
      exact he
    | inr htail => exact h.quiet hanswered event htail
  progress := h.progress
  finishes := h.finishes
  lock := h.lock

theorem sound_of_progress {p : Progress} (hp : p.Of run)
    (hends : ∀ evaluated, p ≠ .ended (.abandoned evaluated))
    (hlock : run.locked = true → ∀ evaluated rejecter, p ≠ .ended (.rejected evaluated rejecter)) :
    Sound run ⟨[], p⟩ :=
  ⟨by simp, by simp, hp, hends, hlock⟩

theorem sound_answered (a : Answer) : Sound run ⟨[], .ended (.answered a)⟩ :=
  sound_of_progress trivial (by simp) (by simp)

end Forecast

section Sound

variable {settings : Settings} {run : Run}

theorem failing_sound (unit : String) (position : Option Nat) (failure : UnitFailure)
    (own : Accumulator) : (run.failing settings unit position failure own).Sound run where
  events event hmem := by
    rw [List.mem_singleton.mp hmem]
    rfl
  quiet hanswered := absurd rfl (hanswered _)
  progress := trivial
  finishes := nofun
  lock := nofun

theorem responding_sound (unit : String) (position : Nat) (status : Status)
    (message : Option ResponseMessage) (own : Accumulator) :
    (run.responding settings unit position status message own).Sound run := by
  unfold Run.responding
  dsimp only
  split
  . exact Forecast.sound_answered _
  . exact Forecast.sound_answered _
  . split
    . exact Forecast.sound_answered _
    . exact failing_sound _ _ _ _
    . exact Forecast.sound_of_progress trivial (by simp) (by simp)

theorem applying_sound (unit : String) (position : Nat) (outcome : Outcome) (own : Accumulator) :
    (run.applying settings unit position outcome own).Sound run := by
  unfold Run.applying
  split
  . split
    . exact failing_sound _ _ _ _
    . next hlocked =>
      exact Forecast.sound_of_progress trivial (by simp) (fun h => absurd h hlocked)
  . have hlater : ∀ {objects : List ContextObject} {locked : Bool},
        run.Precedes (run.consume own objects locked) := by
      intro objects locked
      exact ⟨rfl, rfl, rfl, rfl, fun h => by simp [Run.consume, h]⟩
    exact Forecast.sound_of_progress hlater (by simp) (by simp)
  . exact responding_sound _ _ _ _ _

theorem exhausting_sound : (run.exhausting settings).Sound run := by
  unfold Run.exhausting
  split
  . exact failing_sound _ _ _ _
  . next hlocked =>
    exact Forecast.sound_of_progress trivial (by simp) (fun h => absurd h hlocked)

theorem judging_sound (unit : String) (position : Nat) (own : Accumulator) (ending : UnitEnding) :
    (run.judging settings unit position own ending).Sound run := by
  cases ending with
  | decided outcome => exact applying_sound _ _ _ _
  | deferred plan =>
    exact Forecast.sound_of_progress (.refl run) (by simp) (by simp)
  | failed e => exact failing_sound _ _ _ _
  | panicked payload => exact failing_sound _ _ _ _

theorem evaluating_sound (position : Nat) (u : HandlerUnit) :
    (run.evaluating settings position u).Sound run := by
  unfold Run.evaluating
  split
  . exact Forecast.sound_of_progress trivial (by simp) (by simp)
  . exact ((judging_sound _ _ _ _).of_resembles (run.resembles_edited _)).after rfl

theorem processing_sound (position : Nat) (element : ChainElement) :
    (run.processing settings position element).Sound run := by
  cases element with
  | unit u => exact evaluating_sound _ _
  | spec spec =>
    unfold Run.processing
    dsimp only
    split
    . exact (evaluating_sound _ _).after rfl
    . exact (failing_sound _ _ _ _).after rfl

theorem stepping_sound : (run.stepping settings).Sound run := by
  unfold Run.stepping
  split
  . exact exhausting_sound
  . next remnant _ => exact (processing_sound _ _).of_resembles (run.resembles_past remnant)

theorem resuming_sound (s : Suspension) (r : Resolved) : (s.resuming settings r).Sound s.run := by
  unfold Suspension.resuming
  split
  . exact applying_sound _ _ _ _
  . exact failing_sound _ _ _ _
  . exact failing_sound _ _ _ _

theorem forecast_sound (job : Job) : (job.forecast settings).Sound job.run := by
  cases job with
  | step run => exact stepping_sound
  | resume s r => exact resuming_sound s r

end Sound

namespace Machine

structure Knows (m : Machine) (run : Run) : Prop where
  channel : run.channel < m.wires.length
  owner : ∀ i, run.owner.id? = some i → i < m.dispatches
  patterns : m.patterns.Sound

/-- Whether a machine did for a run what was foretold, or stopped since the channel is closed. -/
def Keeps (m : Machine) (run : Run) (done : Machine × Progress) (told : Forecast) : Prop :=
  ∃ es, (∀ i, run.owner.id? = some i → done.1.strand i = (m.strand i).note es) ∧
    ((es = told.events ∧ done.2 = told.progress) ∨
      (es <+: told.events ∧ done.1.isOpen run.channel = false ∧
        ∃ evaluated, done.2 = .ended (.abandoned evaluated)))

variable {m m' : Machine} {run : Run} {told : Forecast} {done : Machine × Progress}

theorem Knows.of_grows (h : m.Knows run) (hg : m.Grows m') : m'.Knows run where
  channel := Nat.lt_of_lt_of_le h.channel hg.wires
  owner i hi := Nat.lt_of_lt_of_le (h.owner i hi) hg.dispatches
  patterns := hg.patterns h.patterns

theorem keeps_self (p : Progress) : m.Keeps run (m, p) ⟨[], p⟩ := by
  refine ⟨[], ?_, .inl ⟨rfl, rfl⟩⟩
  intro i _
  rw [Strand.note_nil]

theorem keeps_of_closed (h : m.isOpen run.channel = false) :
    m.Keeps run (m, .ended (.abandoned run.evaluated)) told := by
  refine ⟨[], ?_, .inr ⟨List.nil_prefix, h, run.evaluated, rfl⟩⟩
  intro i _
  rw [Strand.note_nil]

theorem Keeps.of_strand_eq (h : m'.Keeps run done told)
    (hs : ∀ i, run.owner.id? = some i → m'.strand i = m.strand i) : m.Keeps run done told := by
  obtain ⟨es, hstrand, hcase⟩ := h
  refine ⟨es, ?_, hcase⟩
  intro i hi
  rw [hstrand i hi, hs i hi]

theorem Keeps.after {e : Event} (h : m'.Keeps run done told)
    (hs : ∀ i, run.owner.id? = some i → m'.strand i = (m.strand i).note [e]) :
    m.Keeps run done (told.after e) := by
  obtain ⟨es, hstrand, hcase⟩ := h
  refine ⟨e :: es, ?_, ?_⟩
  . intro i hi
    rw [hstrand i hi, hs i hi, Strand.note_note]
    rfl
  . cases hcase with
    | inl hkept =>
      obtain ⟨hes, hprogress⟩ := hkept
      exact .inl ⟨by rw [hes]; rfl, hprogress⟩
    | inr hclosed =>
      obtain ⟨hes, hrest⟩ := hclosed
      exact .inr ⟨(List.prefix_cons_inj e).mpr hes, hrest⟩

theorem strand_call {α : Type} {outer : ChannelId} (c : Call α) (i : Nat) :
    (m.call outer c).1.strand i = m.strand i :=
  Acts.strand_eq (@acts_call m (fun _ => False) outer α c) id

theorem keeps_failRun (unit : String) (position : Option Nat) (failure : UnitFailure)
    (own : Accumulator) :
    m.Keeps run (m.failRun run unit position failure own)
      (run.failing m.settings unit position failure own) := by
  unfold failRun fail
  cases hopen : m.isOpen run.channel with
  | true =>
    rw [if_pos rfl]
    refine ⟨_, ?_, .inl ⟨rfl, rfl⟩⟩
    intro i hi
    exact (strand_call _ i).trans (strand_log_of_eq hi)
  | false =>
    exact keeps_of_closed hopen

theorem keeps_respond (unit : String) (position : Nat) (status : Status)
    (message : Option ResponseMessage) (own : Accumulator) :
    m.Keeps run (m.respond run unit position status message own)
      (run.responding m.settings unit position status message own) := by
  cases message with
  | none => exact keeps_self _
  | some message =>
    cases message with
    | text s => exact keeps_self _
    | structured value =>
      -- the codec is foreign code: the run goes on from the machine that the call leaves behind
      have hcall : ∀ i, (m.call run.outer (m.settings.codec value)).1.strand i = m.strand i :=
        strand_call _
      have hsettings := (@acts_call m (fun _ => False) run.outer _
        (m.settings.codec value)).grows.settings
      unfold respond Run.responding
      dsimp only
      generalize hdone : m.call run.outer (m.settings.codec value) = done at hcall hsettings
      have hresult : (m.settings.codec value).result = done.2 := by rw [← hdone]; rfl
      obtain ⟨called, result⟩ := done
      rw [hresult]
      dsimp only at hcall hsettings ⊢
      match result with
      | .ok (.ok encoded) => exact (keeps_self _).of_strand_eq (fun i _ => hcall i)
      | .ok (.error e) =>
        have hfail := @keeps_failRun called run unit (some position) (.error e)
          (own.setStatus status)
        rw [hsettings] at hfail
        exact hfail.of_strand_eq (fun i _ => hcall i)
      | .error payload => exact (keeps_self _).of_strand_eq (fun i _ => hcall i)

theorem keeps_apply (unit : String) (position : Nat) (outcome : Outcome) (own : Accumulator) :
    m.Keeps run (m.apply run unit position outcome own)
      (run.applying m.settings unit position outcome own) := by
  unfold apply
  cases hopen : m.isOpen run.channel with
  | true =>
    rw [if_pos rfl]
    cases outcome with
    | rejected =>
      unfold Run.applying
      dsimp only
      split
      . exact keeps_failRun _ _ _ _
      . exact keeps_self _
    | consumed objects locked => exact keeps_self _
    | respondWith status message => exact keeps_respond _ _ _ _ _
  | false =>
    exact keeps_of_closed hopen

theorem keeps_exhausted : m.Keeps run (m.exhausted run) (run.exhausting m.settings) := by
  unfold exhausted Run.exhausting
  split
  . exact keeps_failRun _ _ _ _
  . exact keeps_self _

theorem keeps_judge (unit : String) (position : Nat) (own : Accumulator) (ending : UnitEnding) :
    m.Keeps run (m.judge run unit position own ending)
      (run.judging m.settings unit position own ending) := by
  cases ending with
  | decided outcome => exact keeps_apply _ _ _ _
  | deferred plan => exact keeps_self _
  | failed e => exact keeps_failRun _ _ _ _
  | panicked payload => exact keeps_failRun _ _ _ _

theorem keeps_evaluate (hk : m.Knows run) (position : Nat) (u : HandlerUnit) :
    m.Keeps run (m.evaluate run position u) (run.evaluating m.settings position u) := by
  unfold evaluate Run.evaluating
  cases u.name with
  | error payload => exact keeps_self _
  | ok name =>
    dsimp only
    -- what the unit does starts other dispatches, but acts on behalf of none that exists
    have hacts := @acts_performAll (m.log (.evaluating run.owner.id? position name run.view))
      (fun i => m.dispatches ≤ i) run.outer (fun _ hi => hi) (u.evaluate run.view).actions
    generalize performAll _ _ _ = acted at hacts
    have hjudge := @keeps_judge acted (run.edited (u.evaluate run.view).edits) name position
      (u.evaluate run.view).response (u.evaluate run.view).ending
    rw [hacts.grows.settings] at hjudge
    refine Keeps.after hjudge ?_
    intro i hi
    exact (hacts.strand_eq (Nat.not_le_of_lt (hk.owner i hi))).trans (strand_log_of_eq hi)

theorem instantiate_snd (hk : m.Knows run) (spec : UnitSpec) :
    (m.instantiate run spec).2 = run.made m.settings spec := by
  unfold instantiate Run.made
  dsimp only
  rw [Registry.instantiate_fst hk.patterns]
  simp only [call]
  generalize (m.settings.registry.instantiate [] spec run.context).1.result = result
  cases result with
  | ok made => rfl
  | error payload => rfl

theorem strand_instantiate {i : Nat} (hi : run.owner.id? = some i) (spec : UnitSpec) :
    (m.instantiate run spec).1.strand i = (m.strand i).note [.instantiating run.owner.id? spec] := by
  rw [instantiate_fst, strand_call]
  exact strand_log_of_eq hi

theorem keeps_process (hk : m.Knows run) (position : Nat) (element : ChainElement) :
    m.Keeps run (m.process run position element) (run.processing m.settings position element) := by
  cases element with
  | unit u => exact keeps_evaluate hk position u
  | spec spec =>
    have hmade := instantiate_snd hk spec
    have hstrand : ∀ i, run.owner.id? = some i →
        (m.instantiate run spec).1.strand i
          =
        (m.strand i).note [.instantiating run.owner.id? spec] :=
      fun i hi => strand_instantiate hi spec
    have hgrows := (@acts_instantiate m (fun _ => True) run
      (fun i hi => ⟨trivial, hk.owner i hi⟩) spec).grows
    unfold process Run.processing
    dsimp only
    rw [← hmade]
    generalize m.instantiate run spec = done at hstrand hgrows
    obtain ⟨next, result⟩ := done
    cases result with
    | ok u =>
      have hnext := keeps_evaluate (hk.of_grows hgrows) position u
      rw [hgrows.settings] at hnext
      exact hnext.after hstrand
    | error e =>
      have hnext := @keeps_failRun next run spec.describe (some position) (.instantiation e) .empty
      rw [hgrows.settings] at hnext
      exact hnext.after hstrand

theorem keeps_step (hk : m.Knows run) : m.Keeps run (m.step run) (run.stepping m.settings) := by
  unfold step
  cases hopen : m.isOpen run.channel with
  | true =>
    rw [if_pos rfl]
    unfold Run.stepping
    cases run.remnant.next? with
    | none => exact keeps_exhausted
    | some taken =>
      obtain ⟨element, remnant⟩ := taken
      exact @keeps_process m (run.past remnant) ⟨hk.channel, hk.owner, hk.patterns⟩ run.evaluated
        element
  | false =>
    exact keeps_of_closed hopen

theorem keeps_resume (s : Suspension) (r : Resolved) :
    m.Keeps s.run (m.resume s r) (s.resuming m.settings r) := by
  unfold resume
  split
  . exact keeps_apply _ _ _ _
  . exact keeps_failRun _ _ _ _
  . exact keeps_failRun _ _ _ _

theorem keeps_turn {job : Job} (hk : m.Knows job.run) :
    m.Keeps job.run (m.turn job) (job.forecast m.settings) := by
  cases job with
  | step run => exact keeps_step hk
  | resume s r => exact keeps_resume s r

end Machine
end PageDispatch
