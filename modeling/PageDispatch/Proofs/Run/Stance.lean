import PageDispatch.Proofs.Machine.Told

/-!
This module contains a job in two halves: what it finds out before the channel is looked at for the
last time, and what becomes of the run then. The first half is a function of the settings, the other
one of the settings and of whether the channel is open.
-/

namespace PageDispatch

/-- What is to be done about a run, if its channel is open. -/
inductive Ruling where
  | decides (unit : String) (position : Nat) (outcome : Outcome) (own : Accumulator)
  | fails (unit : String) (position : Option Nat) (failure : UnitFailure) (own : Accumulator)
  | defers (unit : String) (position : Nat) (own : Accumulator) (plan : DeferralPlan)
  | runsOut
  | escapes

structure Stance where
  events : List Event
  run : Run
  ruling : Ruling

/-- What a job sees of the channel of its run; one that finds it closed does not look again. -/
inductive Glance where
  | unseen
  | seen (isOpen : Bool)

namespace Call

def closes {α : Type} (c : Call α) : Bool := c.signals.any fun s => s matches .close

end Call

namespace UnitEnding

def ruling (unit : String) (position : Nat) (own : Accumulator) : UnitEnding → Ruling
  | decided outcome => .decides unit position outcome own
  | deferred plan => .defers unit position own plan
  | failed e => .fails unit (some position) (.error e) own
  | panicked payload => .fails unit (some position) (.panic payload.message) own

end UnitEnding

namespace Ruling

def ofResolved (unit : String) (position : Nat) (own : Accumulator) : Resolved → Ruling
  | .ok ⟨outcome, some more⟩ => .decides unit position outcome (own.merge more)
  | .ok ⟨outcome, none⟩ => .decides unit position outcome own
  | .error .abandoned => .fails unit (some position) .noOutcome own
  | .error (.failed e) => .fails unit (some position) (.error e) own

end Ruling

namespace Run

variable (settings : Settings)

def standing (run : Run) (position : Nat) (u : HandlerUnit) : Stance :=
  match u.name with
  | .error _ => ⟨[], run, .escapes⟩
  | .ok name =>
    let work := u.evaluate run.view
    ⟨[.evaluating run.owner.id? position name run.view], run.edited work.edits,
      work.ending.ruling name position work.response⟩

def facing (run : Run) (position : Nat) : ChainElement → Stance
  | .unit u => run.standing position u
  | .spec spec =>
    let told := .instantiating run.owner.id? spec
    match run.made settings spec with
    | .ok u =>
      let stance := run.standing position u
      { stance with events := told :: stance.events }
    | .error e => ⟨[told], run, .fails spec.describe (some position) (.instantiation e) .empty⟩

def stance (run : Run) : Stance :=
  match run.remnant.next? with
  | none =>
    ⟨[], run,
      if run.locked then .fails "<end of chain>" none .lockedExhaustion .empty else .runsOut⟩
  | some (element, remnant) => (run.past remnant).facing settings run.evaluated element

def abandoning (run : Run) : Forecast := ⟨[], .ended (.abandoned run.evaluated)⟩

/-- Whether the codec closes the channel of the run and then fails. -/
def silenced (run : Run) : Outcome → Bool
  | .respondWith _ (some (.structured value)) =>
    let c := settings.codec value
    match c.result with
    | .ok (.error _) => c.closes && decide (run.outer = run.channel)
    | _ => false
  | _ => false

def taking (run : Run) (isOpen : Bool) : Ruling → Forecast
  | .decides unit position outcome own =>
    if isOpen && !run.silenced settings outcome then
      run.applying settings unit position outcome own
    else run.abandoning
  | .fails unit position failure own =>
    match isOpen with
    | true => run.failing settings unit position failure own
    | false => run.abandoning
  | .defers unit position own plan => ⟨[], .suspended ⟨run, unit, position, own⟩ plan⟩
  | .runsOut => ⟨[], .ended (.rejected run.evaluated none)⟩
  | .escapes => ⟨[], .escaped⟩

end Run

namespace Stance

def taken (settings : Settings) (isOpen : Bool) (t : Stance) : Forecast :=
  let f := t.run.taking settings isOpen t.ruling
  { f with events := t.events ++ f.events }

end Stance

namespace Job

def stance (settings : Settings) : Job → Stance
  | step run => run.stance settings
  | resume s r => ⟨[], s.run, .ofResolved s.unit s.position s.own r⟩

def seeing (settings : Settings) (job : Job) : Glance → Forecast
  | .unseen => job.run.abandoning
  | .seen isOpen => (job.stance settings).taken settings isOpen

end Job

namespace Machine

/-- The machine when a unit has done what it does and has not been judged yet. -/
def acting (m : Machine) (run : Run) (position : Nat) (u : HandlerUnit) : Machine :=
  match u.name with
  | .error _ => m
  | .ok name =>
    (m.log (.evaluating run.owner.id? position name run.view)).performAll run.outer
      (u.evaluate run.view).actions

def facing (m : Machine) (run : Run) (position : Nat) : ChainElement → Machine
  | .unit u => m.acting run position u
  | .spec spec =>
    match m.instantiate run spec with
    | (m, .ok u) => m.acting run position u
    | (m, .error _) => m

/-- The machine when a job looks at the channel for the last time. -/
def moment (m : Machine) : Job → Machine
  | .step run =>
    match run.remnant.next? with
    | none => m
    | some (element, remnant) => m.facing (run.past remnant) run.evaluated element
  | .resume _ _ => m

def glance (m : Machine) (job : Job) : Glance :=
  match job with
  | .step run =>
    if m.isOpen run.channel then .seen ((m.moment job).isOpen run.channel) else .unseen
  | .resume s _ => .seen (m.isOpen s.run.channel)

def take (m : Machine) (run : Run) : Ruling → Machine × Progress
  | .decides unit position outcome own => m.apply run unit position outcome own
  | .fails unit position failure own => m.failRun run unit position failure own
  | .defers unit position own plan => (m, .suspended ⟨run, unit, position, own⟩ plan)
  | .runsOut => (m, .ended (.rejected run.evaluated none))
  | .escapes => (m, .escaped)

/-- Whether a machine did for a run just what was foretold. -/
structure Does (m : Machine) (run : Run) (done : Machine × Progress) (f : Forecast) : Prop where
  told : done.1.told run.owner.id? = m.told run.owner.id? ++ f.events
  progress : done.2 = f.progress

end Machine

section Resembles

variable {settings : Settings} {run : Run}

theorem Run.resembles_standing (position : Nat) (u : HandlerUnit) :
    run.Resembles (run.standing position u).run := by
  unfold standing
  split
  . exact .refl run
  . exact run.resembles_edited _

theorem Run.resembles_facing (position : Nat) (element : ChainElement) :
    run.Resembles (run.facing settings position element).run := by
  cases element with
  | unit u => exact resembles_standing position u
  | spec spec =>
    unfold facing
    dsimp only
    split
    . exact resembles_standing position _
    . exact .refl run

theorem Run.resembles_stance : run.Resembles (run.stance settings).run := by
  unfold stance
  split
  . exact .refl run
  . next remnant _ => exact (run.resembles_past remnant).trans (resembles_facing _ _)

theorem Job.resembles_stance (job : Job) : job.run.Resembles (job.stance settings).run := by
  cases job with
  | step run => exact Run.resembles_stance
  | resume s r => exact .refl s.run

end Resembles

namespace Machine

variable {m m' : Machine} {run : Run} {f : Forecast} {done : Machine × Progress} {id : ChannelId}

theorem does_self (p : Progress) : m.Does run (m, p) ⟨[], p⟩ :=
  ⟨(List.append_nil _).symm, rfl⟩

theorem Does.of_told_eq (h : m'.Does run done f)
    (htold : m'.told run.owner.id? = m.told run.owner.id?) : m.Does run done f :=
  ⟨by rw [h.told, htold], h.progress⟩

theorem isOpen_call {α : Type} {channel : ChannelId} (c : Call α) :
    (m.call id c).1.isOpen channel
      =
    (m.isOpen channel && !(c.closes && decide (id = channel))) := by
  unfold call Call.closes
  dsimp only
  induction c.signals generalizing m with
  | nil => simp
  | cons s rest ih =>
    rw [List.foldl_cons, ih, List.any_cons]
    cases s with
    | note value => rfl
    | close =>
      rw [signal, isOpen_close]
      cases Decidable.em (id = channel) with
      | inl heq => simp [heq]
      | inr hne => simp [hne]

theorem does_failRun (unit : String) (position : Option Nat) (failure : UnitFailure)
    (own : Accumulator) :
    m.Does run (m.failRun run unit position failure own)
      (run.taking m.settings (m.isOpen run.channel) (.fails unit position failure own)) := by
  unfold failRun fail Run.taking
  cases m.isOpen run.channel with
  | true =>
    rw [if_pos rfl]
    refine ⟨?_, rfl⟩
    refine (told_call _).trans (told_log_of_eq ?_)
    exact decide_eq_true rfl
  | false => exact does_self _

theorem does_respond (hopen : m.isOpen run.channel = true) (unit : String) (position : Nat)
    (status : Status) (message : Option ResponseMessage) (own : Accumulator) :
    m.Does run (m.respond run unit position status message own)
      (run.taking m.settings true (.decides unit position (.respondWith status message) own)) := by
  cases message with
  | none => exact does_self _
  | some message =>
    cases message with
    | text s => exact does_self _
    | structured value =>
      have htold := @told_call m run.owner.id? run.outer _ (m.settings.codec value)
      have hsettings := (@acts_call m (fun _ => False) run.outer _
        (m.settings.codec value)).grows.settings
      have hcall := @isOpen_call m run.outer _ run.channel (m.settings.codec value)
      unfold respond Run.taking Run.silenced Run.applying Run.responding
      dsimp only
      generalize hdone : m.call run.outer (m.settings.codec value) = done at htold hsettings hcall
      have hresult : (m.settings.codec value).result = done.2 := by rw [← hdone]; rfl
      obtain ⟨called, result⟩ := done
      simp only [hresult, Bool.true_and]
      rw [hopen, Bool.true_and] at hcall
      match result with
      | .ok (.ok encoded) => exact (does_self _).of_told_eq htold
      | .ok (.error e) =>
        -- the channel is looked at once more, after the codec
        have hfail := @does_failRun called run unit (some position) (.error e)
          (own.setStatus status)
        rw [hsettings, hcall] at hfail
        dsimp only at hfail ⊢
        generalize ((m.settings.codec value).closes && decide (run.outer = run.channel)) = closed
          at hfail ⊢
        cases closed with
        | true => exact hfail.of_told_eq htold
        | false => exact hfail.of_told_eq htold
      | .error payload => exact (does_self _).of_told_eq htold

theorem does_apply (unit : String) (position : Nat) (outcome : Outcome) (own : Accumulator) :
    m.Does run (m.apply run unit position outcome own)
      (run.taking m.settings (m.isOpen run.channel) (.decides unit position outcome own)) := by
  unfold apply
  cases hopen : m.isOpen run.channel with
  | true =>
    rw [if_pos rfl]
    cases outcome with
    | rejected =>
      have hfail := @does_failRun m run unit (some position) .lockedRejection own
      rw [hopen] at hfail
      unfold Run.taking Run.silenced Run.applying
      dsimp only
      split
      . exact hfail
      . exact does_self _
    | consumed objects locked => exact does_self _
    | respondWith status message => exact does_respond hopen _ _ _ _ _
  | false => exact does_self _

theorem does_take (v : Ruling) :
    m.Does run (m.take run v) (run.taking m.settings (m.isOpen run.channel) v) := by
  cases v with
  | decides unit position outcome own => exact does_apply _ _ _ _
  | fails unit position failure own => exact does_failRun _ _ _ _
  | defers unit position own plan => exact does_self _
  | runsOut => exact does_self _
  | escapes => exact does_self _

theorem judge_eq (unit : String) (position : Nat) (own : Accumulator) (ending : UnitEnding) :
    m.judge run unit position own ending = m.take run (ending.ruling unit position own) := by
  cases ending <;> rfl

theorem resume_eq (s : Suspension) (r : Resolved) :
    m.resume s r = m.take s.run (.ofResolved s.unit s.position s.own r) := by
  match r with
  | .ok ⟨outcome, some more⟩ => rfl
  | .ok ⟨outcome, none⟩ => rfl
  | .error .abandoned => rfl
  | .error (.failed e) => rfl

theorem evaluate_eq (position : Nat) (u : HandlerUnit) :
    m.evaluate run position u
      =
    (m.acting run position u).take (run.standing position u).run
      (run.standing position u).ruling := by
  unfold evaluate acting Run.standing
  cases u.name with
  | error payload => rfl
  | ok name => exact judge_eq _ _ _ _

theorem told_acting (hk : m.Knows run) (position : Nat) (u : HandlerUnit) :
    (m.acting run position u).told run.owner.id?
      =
    m.told run.owner.id? ++ (run.standing position u).events := by
  unfold acting Run.standing
  cases u.name with
  | error payload => exact (List.append_nil _).symm
  | ok name =>
    dsimp only
    rw [told_performAll]
    . apply told_log_of_eq
      exact decide_eq_true rfl
    . exact hk.owner

theorem told_instantiate (spec : UnitSpec) :
    (m.instantiate run spec).1.told run.owner.id?
      =
    m.told run.owner.id? ++ [.instantiating run.owner.id? spec] := by
  rw [instantiate_fst, told_call]
  refine (told_log_of_eq ?_).trans rfl
  exact decide_eq_true rfl

theorem grows_instantiate (hk : m.Knows run) (spec : UnitSpec) :
    m.Grows (m.instantiate run spec).1 :=
  (@acts_instantiate m (fun _ => True) run (fun i hi => ⟨trivial, hk.owner i hi⟩) spec).grows

theorem process_eq (hk : m.Knows run) (position : Nat) (element : ChainElement) :
    m.process run position element
      =
    (m.facing run position element).take (run.facing m.settings position element).run
      (run.facing m.settings position element).ruling := by
  cases element with
  | unit u => exact evaluate_eq position u
  | spec spec =>
    unfold process facing Run.facing
    dsimp only
    rw [← instantiate_snd hk spec]
    generalize m.instantiate run spec = done
    obtain ⟨next, result⟩ := done
    cases result with
    | ok u => exact evaluate_eq position u
    | error e => rfl

theorem told_facing (hk : m.Knows run) (position : Nat) (element : ChainElement) :
    (m.facing run position element).told run.owner.id?
      =
    m.told run.owner.id? ++ (run.facing m.settings position element).events := by
  cases element with
  | unit u => exact told_acting hk position u
  | spec spec =>
    have htold := @told_instantiate m run spec
    have hk' := hk.of_grows (grows_instantiate hk spec)
    unfold facing Run.facing
    dsimp only
    rw [← instantiate_snd hk spec]
    generalize m.instantiate run spec = done at htold hk'
    obtain ⟨next, result⟩ := done
    cases result with
    | ok u =>
      dsimp only at htold hk' ⊢
      rw [told_acting hk', htold, List.append_assoc]
      rfl
    | error e => exact htold

theorem settings_acting (position : Nat) (u : HandlerUnit) :
    (m.acting run position u).settings = m.settings := by
  unfold acting
  split
  . rfl
  . next name _ =>
    exact (@acts_performAll (m.log (.evaluating run.owner.id? position name run.view))
      (fun _ => True) run.outer (fun _ _ => trivial) (u.evaluate run.view).actions).grows.settings

theorem settings_facing (hk : m.Knows run) (position : Nat) (element : ChainElement) :
    (m.facing run position element).settings = m.settings := by
  cases element with
  | unit u => exact settings_acting position u
  | spec spec =>
    have hsettings := (grows_instantiate hk spec).settings
    unfold facing
    dsimp only
    generalize m.instantiate run spec = done at hsettings
    obtain ⟨next, result⟩ := done
    cases result with
    | ok u => exact (settings_acting position u).trans hsettings
    | error e => exact hsettings

variable {job : Job}

theorem turn_eq (hk : m.Knows job.run) (hg : m.glance job ≠ .unseen) :
    m.turn job
      =
    (m.moment job).take (job.stance m.settings).run (job.stance m.settings).ruling := by
  cases job with
  | resume s r => exact resume_eq s r
  | step run =>
    unfold glance at hg
    dsimp only at hg
    dsimp only [turn, step, moment, Job.stance, Run.stance]
    split at hg
    . next hopen =>
      rw [if_pos hopen]
      cases run.remnant.next? with
      | none =>
        unfold exhausted
        dsimp only
        split <;> rfl
      | some next =>
        obtain ⟨element, remnant⟩ := next
        exact @process_eq m (run.past remnant) ⟨hk.channel, hk.owner, hk.patterns⟩ _ _
    . contradiction

theorem told_moment (hk : m.Knows job.run) :
    (m.moment job).told job.run.owner.id?
      =
    m.told job.run.owner.id? ++ (job.stance m.settings).events := by
  cases job with
  | resume s r => exact (List.append_nil _).symm
  | step run =>
    dsimp only [moment, Job.stance, Run.stance]
    cases run.remnant.next? with
    | none => exact (List.append_nil _).symm
    | some next =>
      obtain ⟨element, remnant⟩ := next
      exact @told_facing m (run.past remnant) ⟨hk.channel, hk.owner, hk.patterns⟩ _ _

theorem settings_moment (hk : m.Knows job.run) : (m.moment job).settings = m.settings := by
  cases job with
  | resume s r => rfl
  | step run =>
    dsimp only [moment]
    cases run.remnant.next? with
    | none => rfl
    | some next =>
      obtain ⟨element, remnant⟩ := next
      exact @settings_facing m (run.past remnant) ⟨hk.channel, hk.owner, hk.patterns⟩ _ _

theorem glance_cases (m : Machine) (job : Job) :
    (m.glance job = .unseen ∧ m.turn job = (m, .ended (.abandoned job.run.evaluated))) ∨
    m.glance job = .seen ((m.moment job).isOpen job.run.channel) := by
  cases job with
  | resume s r => exact .inr rfl
  | step run =>
    unfold glance
    dsimp only
    split
    . exact .inr rfl
    . next hclosed =>
      refine .inl ⟨rfl, ?_⟩
      dsimp only [turn, step]
      rw [if_neg hclosed]
      rfl

/-- What a job does for its run depends on the machine by what it sees of the channel only. -/
theorem does_turn (hk : m.Knows job.run) :
    m.Does job.run (m.turn job) (job.seeing m.settings (m.glance job)) := by
  have hresembles := @Job.resembles_stance m.settings job
  cases glance_cases m job with
  | inl hclosed =>
    obtain ⟨hglance, hturn⟩ := hclosed
    rw [hglance, hturn]
    exact does_self _
  | inr hseen =>
    have htake := @does_take (m.moment job) (job.stance m.settings).run
      (job.stance m.settings).ruling
    rw [settings_moment hk, hresembles.channel] at htake
    have htold := htake.told
    rw [hresembles.owner, told_moment hk, List.append_assoc] at htold
    rw [turn_eq hk (by rw [hseen]; exact nofun), hseen]
    exact ⟨htold, htake.progress⟩

end Machine
end PageDispatch
