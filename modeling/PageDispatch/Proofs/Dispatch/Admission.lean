import PageDispatch.Proofs.Dispatch.Balance
import PageDispatch.Proofs.Dispatch.Moves

/-!
This module contains the verification of admission control: a request that comes to a full pool is
refused at no cost but its answer, all others are never refused, and if every dispatch has one job
at a time the queue stays within its bound, although only arrivals look at it.
-/

namespace PageDispatch
namespace Machine

/--
Whether the pool goes by its configuration, the gauge shows the jobs that are queued or running, and
both counters of refused requests agree.
-/
structure Gauged (m : Machine) (config : PoolConfig) (running : Option Job) : Prop where
  bound : m.pool.queueBound = config.queueBound
  mode : m.pool.backpressure = config.backpressure
  worker : m.pool.running = running
  depth : m.pool.metrics.depth = .ofNat (m.pool.waiting.length + running.toList.length)
  shed : m.pool.metrics.shed = m.metrics.shed

variable {settings : Settings} {config : PoolConfig} {running : Option Job}
  {m m' next started : Machine} {job : Job} {d : Dispatch} {disposition : Disposition}
  {r : Response} {i : Nat} {nested : Bool} {summary : DispatchSummary}

section Gauge

theorem gauged_new (settings : Settings) (pages : List Page) (decorators : List Decorator) :
    (new settings pages decorators).Gauged settings.pool none := ⟨rfl, rfl, rfl, rfl, rfl⟩

theorem Gauged.of_eq (h : m.Gauged config running) (hpool : m'.pool = m.pool)
    (hshed : m'.metrics.shed = m.metrics.shed) : m'.Gauged config running := by
  constructor
  case bound => rw [hpool, h.bound]
  case mode => rw [hpool, h.mode]
  case worker => rw [hpool, h.worker]
  case depth => rw [hpool, h.depth]
  case shed => rw [hpool, h.shed, hshed]

theorem shed_recordEnd (x : DispatchMetrics) (latency : UInt64) (h : disposition ≠ .shed) :
    (x.recordEnd disposition latency).shed = x.shed := by
  cases disposition <;> first | rfl | exact absurd rfl h

theorem pool_finishWith : (m.finishWith d disposition r).pool = m.pool := by
  obtain ⟨es, hdeliver⟩ := exists_talks_deliver (m := m) (d := d) r
  exact hdeliver.pool

theorem metrics_finishWith : (m.finishWith d disposition r).metrics
      =
    m.metrics.recordEnd disposition (1000 * (m.clock - d.started)).toUInt64 := by
  obtain ⟨es, hdeliver⟩ := exists_talks_deliver (m := m) (d := d) r
  unfold finishWith finish Dispatch.summary
  dsimp only [log]
  rw [hdeliver.metrics, hdeliver.clock]

theorem pool_shed : (m.shed d).pool = m.pool := by
  rw [shed_eq, pool_finishWith, (talks_guarded _).pool]

theorem metrics_shed :
    (m.shed d).metrics = m.metrics.recordEnd .shed (1000 * (m.clock - d.started)).toUInt64 := by
  rw [shed_eq, metrics_finishWith, (talks_guarded _).metrics, (talks_guarded _).clock]

theorem tryAdmit_of_isFull (h : m.pool.isFull = true) :
    m.tryAdmit.2 = { m with pool := { m.pool with metrics := m.pool.metrics.recordShed } } := by
  unfold tryAdmit Pool.tryAdmit
  rw [h]
  rfl

theorem Move.gauged (h : m.Move m') (hm : m.Gauged config running) :
    m'.Gauged config running := by
  cases h with
  | talk h => exact hm.of_eq h.pool (by rw [h.metrics])
  | log h => exact hm.of_eq rfl rfl
  | learn pages decorators patterns => exact hm.of_eq rfl rfl
  | count => exact hm.of_eq rfl rfl
  | @submit job h =>
    have hdepth : (m.submit job).pool.metrics.depth = m.pool.metrics.depth + 1 := rfl
    have hwaiting : (m.submit job).pool.waiting = m.pool.waiting ++ [job] := rfl
    refine { hm with depth := ?_ }
    rw [hdepth, hwaiting, hm.depth, List.length_append, List.length_singleton, Nat.add_right_comm,
      UInt64.ofNat_add _ 1]
    rfl
  | park h after closes outer r => exact hm.of_eq rfl rfl
  | accept h => exact hm.of_eq rfl rfl
  | @refuse d hid hpage h =>
    have hfull : (m.receive d).pool.isFull = true := h
    have hrefused := tryAdmit_of_isFull hfull
    have hshed : ((m.receive d).tryAdmit.2.shed d).pool.metrics.shed = m.pool.metrics.shed + 1 := by
      rw [pool_shed, hrefused]
      rfl
    have hshed' : ((m.receive d).tryAdmit.2.shed d).metrics.shed = m.metrics.shed + 1 := by
      rw [metrics_shed, hrefused]
      rfl
    constructor
    case bound =>
      rw [pool_shed, hrefused]
      exact hm.bound
    case mode =>
      rw [pool_shed, hrefused]
      exact hm.mode
    case worker =>
      rw [pool_shed, hrefused]
      exact hm.worker
    case depth =>
      rw [pool_shed, hrefused]
      exact hm.depth
    case shed => rw [hshed, hshed', hm.shed]
  | answer hheard hne h =>
    exact hm.of_eq pool_finishWith (by rw [metrics_finishWith, shed_recordEnd _ _ hne])
  | abandon d => exact hm.of_eq rfl rfl

theorem Moves.gauged (h : Moves m m') (hm : m.Gauged config running) :
    m'.Gauged config running := by
  induction h with
  | refl => exact hm
  | tail _ hlast ih => exact hlast.gauged ih

theorem Shifts.gauged (h : m.Shifts next) (hm : m.Gauged config running) :
    next.Gauged config running := by
  obtain ⟨waiting, hperm, hpool⟩ := h.pool
  constructor
  case bound => rw [hpool, ← hm.bound]
  case mode => rw [hpool, ← hm.mode]
  case worker => rw [hpool, ← hm.worker]
  case depth =>
    have hlength : waiting.length = m.pool.waiting.length := hperm.length_eq
    rw [hpool, hlength]
    exact hm.depth
  case shed => rw [hpool, h.metrics, ← hm.shed]

theorem Gauged.startJob? (h : m.Gauged config none) (hstart : m.startJob? = some (job, started)) :
    started.Gauged config (some job) := by
  obtain ⟨rest, hwaiting, rfl⟩ := startJob?_eq_some hstart
  have hdepth := h.depth
  rw [hwaiting] at hdepth
  exact ⟨h.bound, h.mode, rfl, hdepth, h.shed⟩

/-- A job that is done is no longer on the gauge. -/
theorem Gauged.endJob (h : m.Gauged config (some job)) (panicked : Bool) :
    (m.endJob panicked).Gauged config none := by
  have hpool : (m.endJob panicked).pool = { m.pool with
      running := none
      metrics :=
        (if panicked then m.pool.metrics.recordPanic else m.pool.metrics).recordCompletion } := by
    unfold Machine.endJob Pool.finish
    dsimp only
    rw [h.worker]
  constructor
  case bound => rw [hpool, ← h.bound]
  case mode => rw [hpool, ← h.mode]
  case worker => rw [hpool]
  case depth =>
    have hdepth : (m.endJob panicked).pool.metrics.depth = m.pool.metrics.depth - 1 := by
      rw [hpool]
      cases panicked <;> rfl
    rw [hdepth, h.depth, hpool, Option.toList_some, List.length_singleton, UInt64.ofNat_add _ 1]
    exact UInt64.add_sub_cancel _ _
  case shed =>
    rw [hpool]
    cases panicked <;> exact h.shed

theorem Stirred.gauged (h : Stirred settings m) : m.Gauged settings.pool none := by
  induction h with
  | new pages decorators => exact gauged_new settings pages decorators
  | next hbefore hnext ih =>
    obtain ⟨job, started, done, panicked, hstart, hmoves, rfl⟩ | ⟨next, hshifts, hmoves⟩ :=
      hnext.moves hbefore.sane hbefore.attentive
    . exact (Moves.gauged hmoves (ih.startJob? hstart)).endJob panicked
    . exact Moves.gauged hmoves (hshifts.gauged ih)

theorem Gauged.isFull_iff (h : m.Gauged config running) : m.pool.isFull = true ↔
    config.backpressure = .shed ∧ config.queueBound ≤ m.pool.metrics.depth := by
  unfold Pool.isFull
  rw [h.mode, h.bound, Bool.and_eq_true, beq_iff_eq, decide_eq_true_eq]

end Gauge

/-- What a machine has come to by refusing a request: it has answered it, and counted that. -/
structure Refuses (m : Machine) (request : Request) (channel outer : ChannelId) (nested : Bool)
    (m' : Machine) : Prop where
  settings : m'.settings = m.settings
  pages : m'.pages = m.pages
  decorators : m'.decorators = m.decorators
  patterns : m'.patterns = m.patterns
  clock : m'.clock = m.clock
  dispatches : m'.dispatches = m.dispatches + 1
  pool : m'.pool = { m.pool with
    metrics := { m.pool.metrics with shed := m.pool.metrics.shed + 1 } }
  metrics : ∃ latency, m'.metrics = { m.metrics with
    requests := m.metrics.requests + 1
    shed := m.metrics.shed + 1
    latencyTotal := m.metrics.latencyTotal + latency }
  flights : ∀ f, m'.Holds f → m.Holds f
  journal : ∃ es summary, m'.journal
      = m.journal ++ .received m.dispatches channel request
        :: (es ++ [.finished m.dispatches nested summary]) ∧
    (∀ e ∈ es, e.isTalk = true) ∧ summary.disposition = .shed ∧ summary.pagesTried = 0
  answer :
    (Fate.answers (m.newDispatch request channel outer nested) .shed
      (m.settings.fallback.overloaded request).orMinimal).Leaves (m'.isOpen channel = false)
      ((m.strand m.dispatches).note [.received m.dispatches channel request])
      (m'.strand m.dispatches)

theorem exists_talks_shed : ∃ es mid status,
    m.Talks es mid ∧ m.shed d = mid.finish d .shed status := by
  obtain ⟨sent, hsent⟩ := exists_talks_deliver
    (m := (m.guarded d.outer (m.settings.fallback.overloaded d.context.request)).1) (d := d)
    (m.settings.fallback.overloaded d.context.request).orMinimal
  exact ⟨_, _, _, (talks_guarded _).trans hsent, shed_eq⟩

theorem leaves_shed :
    (Fate.answers d .shed (m.settings.fallback.overloaded d.context.request).orMinimal).Leaves
      ((m.shed d).isOpen d.channel = false) (m.strand d.id) ((m.shed d).strand d.id) := by
  rw [shed_eq]
  have hleaves := leaves_finishWith
    (m := (m.guarded d.outer (m.settings.fallback.overloaded d.context.request)).1) (d := d) .shed
    (m.settings.fallback.overloaded d.context.request).orMinimal
  rw [strand_guarded] at hleaves
  exact hleaves

theorem refuses_dispatch (h : m.pool.isFull = true) (request : Request)
    (channel outer : ChannelId) (nested : Bool) :
    m.Refuses request channel outer nested (m.dispatch request channel outer nested) := by
  rw [dispatch_of_isFull h]
  generalize hd : m.newDispatch request channel outer nested = d
  have hfull : (m.receive d).pool.isFull = true := h
  have hstrand : (m.receive d).tryAdmit.2.strand d.id
      = (m.strand d.id).note [.received d.id d.channel d.context.request] :=
    sameWork_tryAdmit.strand_eq.trans (strand_log_of_eq rfl)
  have hleaves := leaves_shed (m := (m.receive d).tryAdmit.2) (d := d)
  obtain ⟨es, mid, status, htalks, hshed⟩ := @exists_talks_shed (m.receive d).tryAdmit.2 d
  rw [hstrand] at hleaves
  rw [hshed] at hleaves ⊢
  rw [tryAdmit_of_isFull hfull] at htalks
  subst hd
  constructor
  case settings => exact htalks.settings
  case pages => exact htalks.pages
  case decorators => exact htalks.decorators
  case patterns => exact htalks.patterns
  case clock => exact htalks.clock
  case dispatches => exact htalks.dispatches
  case pool => exact htalks.pool
  case metrics => exact ⟨_, congrArg (DispatchMetrics.recordEnd · .shed _) htalks.metrics⟩
  case flights => exact htalks.flights
  case journal =>
    refine ⟨es, (m.newDispatch request channel outer nested).summary mid.clock .shed status, ?_,
      htalks.words, rfl, rfl⟩
    refine (congrArg (· ++ [_]) htalks.journal).trans ?_
    simp only [receive, log, List.append_assoc]
    rfl
  case answer => exact hleaves

section Refusals

/-- Only a request that comes to a full pool is refused, and at once. -/
theorem Move.refused (h : m.Move m') (hmem : .finished i nested summary ∈ m'.journal)
    (hs : summary.disposition = .shed) :
    .finished i nested summary ∈ m.journal ∨ m.pool.isFull = true ∧ m.dispatches ≤ i :=
  (h.finished_mem hmem).imp_right fun hnew => hnew.2 hs

/-- Whether a dispatch has been let in. -/
structure Served (m : Machine) (i : Nat) : Prop where
  arrived : i < m.dispatches
  kept : ∀ nested summary, .finished i nested summary ∈ m.journal → summary.disposition ≠ .shed

theorem Served.of_eq (h : m.Served i) (hdispatches : m'.dispatches = m.dispatches)
    (hjournal : m'.journal = m.journal) : m'.Served i := by
  constructor
  case arrived => rw [hdispatches]; exact h.arrived
  case kept => rw [hjournal]; exact h.kept

theorem Moves.served (h : Moves m m') (hm : m.Served i) : m'.Served i := by
  induction h with
  | refl => exact hm
  | tail _ hlast ih =>
    refine ⟨Nat.lt_of_lt_of_le ih.arrived hlast.extends.dispatches, ?_⟩
    intro nested summary hmem hs
    cases hlast.refused hmem hs with
    | inl hold => exact ih.kept nested summary hold hs
    | inr hnew => exact Nat.not_lt_of_le hnew.2 ih.arrived

theorem Stirs.served (h : m.Stirs m') (hm : Stirred settings m) (hi : m.Served i) :
    m'.Served i := by
  obtain ⟨job, started, done, panicked, hstart, hmoves, rfl⟩ | ⟨next, hshifts, hmoves⟩ :=
    h.moves hm.sane hm.attentive
  . obtain ⟨rest, -, rfl⟩ := startJob?_eq_some hstart
    have hdone := Moves.served hmoves (hi.of_eq rfl rfl)
    exact hdone.of_eq rfl rfl
  . exact Moves.served hmoves (hi.of_eq hshifts.dispatches hshifts.journal)

/-- A request that comes to a pool with room is let in. -/
theorem served_dispatch (hm : m.Sane) (h : m.pool.isFull = false) (request : Request)
    (channel outer : ChannelId) (nested : Bool) :
    (m.dispatch request channel outer nested).Served m.dispatches := by
  rw [dispatch_of_vacant h]
  generalize hd : m.newDispatch request channel outer nested = d
  have hheard : (m.receive d).Heard d := List.mem_append_right _ List.mem_cons_self
  refine Moves.served (moves_advance hheard) ⟨Nat.lt_succ_self _, ?_⟩
  intro nested summary hmem hs
  exact Nat.lt_irrefl _ (hm.fresh.lt_of_mem_journal (finished_mem_of_receive hmem) rfl)

/-- Whether nobody has been refused so far. -/
def Welcoming (m : Machine) : Prop :=
  ∀ i nested summary, .finished i nested summary ∈ m.journal → summary.disposition ≠ .shed

theorem Moves.welcoming (h : Moves m m') (hm : m.Gauged config running)
    (hmode : config.backpressure = .block) (hopen : m.Welcoming) : m'.Welcoming := by
  induction h with
  | refl => exact hopen
  | @tail mid last hmid hlast ih =>
    intro i nested summary hmem hs
    cases hlast.refused hmem hs with
    | inl hold => exact ih i nested summary hold hs
    | inr hnew =>
      have hshed := ((Moves.gauged hmid hm).isFull_iff.mp hnew.1).1
      rw [hmode] at hshed
      cases hshed

/-- A pool that blocks lets everybody in. -/
theorem Stirred.welcoming (h : Stirred settings m)
    (hmode : settings.pool.backpressure = .block) : m.Welcoming := by
  induction h with
  | new pages decorators => exact fun _ _ _ hmem => nomatch hmem
  | next hbefore hnext ih =>
    obtain ⟨job, started, done, panicked, hstart, hmoves, rfl⟩ | ⟨next, hshifts, hmoves⟩ :=
      hnext.moves hbefore.sane hbefore.attentive
    . have hstarted := hbefore.gauged.startJob? hstart
      obtain ⟨rest, -, rfl⟩ := startJob?_eq_some hstart
      have hdone : done.Welcoming := Moves.welcoming hmoves hstarted hmode ih
      exact hdone
    . refine Moves.welcoming hmoves (hshifts.gauged hbefore.gauged) hmode ?_
      unfold Welcoming
      rw [hshifts.journal]
      exact ih

theorem endings_eq_zero {summaries : List DispatchSummary}
    (h : ∀ s ∈ summaries, s.disposition ≠ disposition) :
    DispatchMetrics.endings summaries disposition = 0 := by
  apply List.countP_eq_zero.mpr
  intro s hs
  simpa using h s hs

theorem Stirred.shed_eq_zero_of_block (h : Stirred settings m)
    (hmode : settings.pool.backpressure = .block) : m.metrics.shed = 0 := by
  have hended := h.balances.ended .shed
  rw [endings_eq_zero] at hended
  . exact hended
  . intro s hs
    obtain ⟨e, hmem, hsummary⟩ := List.mem_filterMap.mp hs
    cases e with
    | finished i nested summary =>
      cases hsummary
      exact h.welcoming hmode i nested s hmem
    | _ => cases hsummary

end Refusals

section Lines

/--
Whether a job keeps to its own dispatch: its unit does not defer, and none of those that it calls on
starts another dispatch.
-/
structure Prompt (m : Machine) (job : Job) : Prop where
  decides : ∀ s plan, (m.turn job).2 ≠ .suspended s plan
  alone : (m.turn job).1.dispatches = m.dispatches

/-- What an engine can come to if only its dispatches use the pool, and their jobs are prompt. -/
inductive Orderly (settings : Settings) : Machine → Prop
  | new (pages : List Page) (decorators : List Decorator) :
    Orderly settings (new settings pages decorators)
  | work {m started : Machine} {job : Job} (h : Orderly settings m)
    (hstart : m.startJob? = some (job, started)) (hprompt : started.Prompt job) :
    Orderly settings ((started.work job).1.endJob (started.work job).2)
  | calm {m m' : Machine} (h : Orderly settings m) (hcalm : m.Calm m')
    (hown : ∀ job ∈ m'.pool.waiting, job.run.owner ≠ .caller) : Orderly settings m'

/-- Whether every run on its way has a job in the queue, and belongs to a dispatch. -/
def Lined (m : Machine) : Prop :=
  ∀ f, m.Holds f → ∃ job d, f = .queued job ∧ job.run.owner = .dispatch d

/-- How many dispatches are on their way. -/
def busy (m : Machine) : Nat := Multiset.card (m.inFlight.filterMap Flight.dispatch?)

theorem Orderly.stirred (h : Orderly settings m) : Stirred settings m := by
  induction h with
  | new pages decorators => exact .new pages decorators
  | work _ hstart _ ih => exact ih.next (.work hstart)
  | calm _ hcalm _ ih => exact ih.next (.calm hcalm)

/-- The queue holds one job for every dispatch. -/
theorem Lined.length_waiting (h : m.Lined) : m.pool.waiting.length = m.busy := by
  have htimers : m.timers.filterMap (fun timer => timer.alarm.parked?) = [] := by
    apply List.eq_nil_iff_forall_not_mem.mpr
    intro f hf
    have hheld : f ∈ m.inFlight := Multiset.mem_add.mpr (.inr hf)
    obtain ⟨timer, -, hparked⟩ := List.mem_filterMap.mp hf
    obtain ⟨job, d, rfl, -⟩ := h f (mem_inFlight_iff.mp hheld)
    unfold Alarm.parked? at hparked
    split at hparked <;> cases hparked
  have hdispatch : ∀ f ∈ m.pool.waiting.map Flight.queued, f.dispatch?.isSome = true := by
    intro f hf
    have hheld : f ∈ m.inFlight := Multiset.mem_add.mpr (.inl hf)
    obtain ⟨job, d, rfl, howner⟩ := h f (mem_inFlight_iff.mp hheld)
    unfold Flight.dispatch? Flight.run
    dsimp only
    rw [howner]
    rfl
  unfold busy inFlight
  rw [htimers, Multiset.coe_nil, add_zero, Multiset.filterMap_coe, Multiset.coe_card,
    List.length_filterMap_eq_countP, List.countP_eq_length.mpr hdispatch, List.length_map]

theorem length_summaries_le (h : m.journal <+: m'.journal) :
    m.summaries.length ≤ m'.summaries.length :=
  (h.filterMap Event.summary?).length_le

/-- Whatever starts no dispatch does not make more of them busy. -/
theorem busy_le (hm : Stirred settings m) (hm' : Stirred settings m') (h : m.Stirs m')
    (hd : m'.dispatches ≤ m.dispatches) : m'.busy ≤ m.busy := by
  have harrived : m.summaries.length + m.busy = m.dispatches := hm.balances.arrived
  have harrived' : m'.summaries.length + m'.busy = m'.dispatches := hm'.balances.arrived
  have hsummaries := length_summaries_le (h.journal_prefix hm.sane)
  omega

theorem dispatches_proceed_le {run : Run} {owner : Owner} {p : Progress} {evaluated : Nat}
    (hfit : m.Fits run) (howner : run.owner = owner) :
    (m.proceed owner evaluated p).1.dispatches ≤ m.dispatches := by
  have hlt : ∀ i, owner.id? = some i → i < m.dispatches := by
    intro i hi
    rw [← howner] at hi
    exact hfit.id_lt hi
  cases p with
  | continues later => exact Nat.le_refl _
  | suspended s plan => exact dispatches_suspend s plan
  | ended result => exact (acts_end hfit howner).dispatches_le hlt
  | escaped => exact (acts_escape hfit howner).dispatches_le hlt

theorem Prompt.dispatches_work_le (h : m.Prompt job) (hfit : m.Fits job.run) :
    (m.work job).1.dispatches ≤ m.dispatches := by
  have hgrows := (acts_turn_of_fits hfit).grows
  exact (dispatches_proceed_le (hfit.of_grows hgrows) rfl).trans (Nat.le_of_eq h.alone)

theorem Prompt.lined (h : started.Prompt job) (hm : m.Sane) (hl : m.Lined)
    (hstart : m.startJob? = some (job, started)) : (started.work job).1.Lined := by
  intro f hf
  have hfit := hm.fits_startJob? hstart
  obtain ⟨_, d, heq, howner⟩ := hl _ (holds_of_startJob? hstart)
  cases heq
  obtain hold | hnew | hfirst := holds_of_work hfit hf
  . exact hl f (holds_of_holds_started hstart hold)
  . -- the run itself goes on only if it takes a next step, since it is prompt
    have hp := keeps_progress_of (keeps_turn ((hm.startJob? hstart).knows hfit))
    cases hprogress : (started.turn job).2 with
    | continues later =>
      rw [hprogress] at hnew hp
      cases hnew
      exact ⟨.step later, d, rfl, hp.owner.trans howner⟩
    | suspended s plan => exact absurd hprogress (h.decides s plan)
    | ended result =>
      rw [hprogress] at hnew
      cases hnew
    | escaped =>
      rw [hprogress] at hnew
      cases hnew
  . obtain ⟨other, chain, rfl⟩ := hfirst
    exact ⟨_, other, rfl, rfl⟩

theorem Calm.lined (h : m.Calm m') (hl : m.Lined)
    (hown : ∀ job ∈ m'.pool.waiting, job.run.owner ≠ .caller) : m'.Lined := by
  intro f hf
  cases h with
  | reorder hperm =>
    cases f with
    | queued job => exact hl _ (hperm.mem_iff.mp hf)
    | parked s closes outer r => exact hl _ hf
  | ring now htimers hp =>
    obtain ⟨es, hring⟩ := exists_talks_ring hp
    exact hl f ((shifts_takeTimer now htimers).flights f (hring.flights f hf))
  | @dispatch channel request hc =>
    have hacts := @acts_dispatch m (fun _ => True) channel channel trivial hc request false
    cases hacts.holds hf with
    | inl hold => exact hl f hold
    | inr hnew =>
      obtain ⟨d, chain, rfl, -⟩ := hnew
      exact ⟨_, d, rfl, rfl⟩
  | runChain chain context hc =>
    exact absurd rfl (hown _ (List.mem_append_right _ List.mem_cons_self))
  | connect wire hw => exact hl f hf
  | close id => exact hl f hf
  | rewire id hw => exact hl f hf
  | registerPage page => exact hl f hf
  | addDecorator decorator => exact hl f hf

theorem summary?_of_isTalk {e : Event} (h : e.isTalk = true) : e.summary? = none := by
  cases e <;> first | rfl | cases h

theorem Refuses.length_summaries {request : Request} {channel outer : ChannelId}
    (h : m.Refuses request channel outer nested m') :
    m'.summaries.length = m.summaries.length + 1 := by
  obtain ⟨es, summary, hjournal, hes, -⟩ := h.journal
  have hsilent : es.filterMap Event.summary? = [] :=
    List.filterMap_eq_nil_iff.mpr fun e he => summary?_of_isTalk (hes e he)
  unfold summaries
  rw [hjournal, List.filterMap_append, List.filterMap_cons_none rfl, List.filterMap_append,
    hsilent, List.nil_append, List.length_append]
  rfl

/-- The gauge of an orderly engine shows how many dispatches are on their way. -/
theorem toNat_depth (hm : Stirred settings m) (hl : m.Lined)
    (hb : m.busy ≤ settings.pool.queueBound.toNat) : m.pool.metrics.depth.toNat = m.busy := by
  have hlt := settings.pool.queueBound.toNat_lt
  have hdepth : m.pool.metrics.depth = .ofNat m.pool.waiting.length := hm.gauged.depth
  rw [hdepth, hl.length_waiting, UInt64.toNat_ofNat']
  exact Nat.mod_eq_of_lt (Nat.lt_of_le_of_lt hb hlt)

theorem busy_dispatch (hm : Stirred settings m) (hl : m.Lined)
    (hmode : settings.pool.backpressure = .shed) (hb : m.busy ≤ settings.pool.queueBound.toNat)
    (request : Request) {channel : ChannelId} (hc : channel < m.wires.length) :
    (m.dispatch request channel channel false).busy ≤ settings.pool.queueBound.toNat := by
  have hstirs : m.Stirs (m.dispatch request channel channel false) := .calm (.dispatch request hc)
  have harrived : m.summaries.length + m.busy = m.dispatches := hm.balances.arrived
  have harrived' : (m.dispatch request channel channel false).summaries.length
      + (m.dispatch request channel channel false).busy
        = (m.dispatch request channel channel false).dispatches :=
    (hm.next hstirs).balances.arrived
  cases hfull : m.pool.isFull with
  | true =>
    have hrefused := refuses_dispatch hfull request channel channel false
    -- it has arrived and is answered already, so nobody more is on the way
    rw [hrefused.length_summaries, hrefused.dispatches] at harrived'
    omega
  | false =>
    have hroom : m.pool.metrics.depth.toNat < settings.pool.queueBound.toNat := by
      rw [← UInt64.lt_iff_toNat_lt, ← UInt64.not_le]
      intro hle
      rw [hm.gauged.isFull_iff.mpr ⟨hmode, hle⟩] at hfull
      cases hfull
    rw [toNat_depth hm hl hb] at hroom
    rw [dispatches_dispatch request false hc] at harrived'
    have hsummaries := length_summaries_le (hstirs.journal_prefix hm.sane)
    omega

theorem Calm.busy_le (h : m.Calm m') (hm : Stirred settings m) (hl : m.Lined)
    (hmode : settings.pool.backpressure = .shed)
    (hb : m.busy ≤ settings.pool.queueBound.toNat) :
    m'.busy ≤ settings.pool.queueBound.toNat := by
  have hsame : m'.dispatches ≤ m.dispatches → m'.busy ≤ settings.pool.queueBound.toNat :=
    fun hd => (Machine.busy_le hm (hm.next (.calm h)) (.calm h) hd).trans hb
  cases h with
  | dispatch request hc => exact busy_dispatch hm hl hmode hb request hc
  | reorder hperm => exact hsame (Nat.le_refl _)
  | ring now htimers hp =>
    obtain ⟨es, hring⟩ := exists_talks_ring hp
    exact hsame (Nat.le_of_eq hring.dispatches)
  | runChain chain context hc => exact hsame (Nat.le_refl _)
  | connect wire hw => exact hsame (Nat.le_refl _)
  | close id => exact hsame (Nat.le_refl _)
  | rewire id hw => exact hsame (Nat.le_refl _)
  | registerPage page => exact hsame (Nat.le_refl _)
  | addDecorator decorator => exact hsame (Nat.le_refl _)

theorem lined_new {pages : List Page} {decorators : List Decorator} :
    (new settings pages decorators).Lined := fun _ hf => absurd hf not_holds_new

theorem Orderly.within_bound (h : Orderly settings m)
    (hmode : settings.pool.backpressure = .shed) :
    m.Lined ∧ m.busy ≤ settings.pool.queueBound.toNat := by
  induction h with
  | new pages decorators => exact ⟨lined_new, Nat.zero_le _⟩
  | @work m started job h hstart hprompt ih =>
    have hm := h.stirred
    have hfit := hm.sane.fits_startJob? hstart
    have hstirs : m.Stirs ((started.work job).1.endJob (started.work job).2) := .work hstart
    have hlined := hprompt.lined hm.sane ih.1 hstart
    refine ⟨fun f hf => hlined f ((sameWork_endJob _).holds hf), ?_⟩
    refine (busy_le hm (hm.next hstirs) hstirs ?_).trans ih.2
    obtain ⟨rest, -, rfl⟩ := startJob?_eq_some hstart
    exact hprompt.dispatches_work_le hfit
  | calm h hcalm hown ih =>
    exact ⟨hcalm.lined ih.1 hown, hcalm.busy_le h.stirred ih.1 hmode ih.2⟩

theorem Orderly.depth_le (h : Orderly settings m) (hmode : settings.pool.backpressure = .shed) :
    m.pool.metrics.depth ≤ settings.pool.queueBound := by
  have ⟨hlined, hbusy⟩ := h.within_bound hmode
  rw [UInt64.le_iff_toNat_le, toNat_depth h.stirred hlined hbusy]
  exact hbusy

end Lines

end Machine

open Machine in
/-- A dispatch that was let in is not refused at any later point. -/
theorem Entry.Precedes.served {settings : Settings} {e : Entry} {m : Machine}
    (h : e.Precedes settings m) (hroom : e.engine.pool.isFull = false) : m.Served e.id := by
  induction h with
  | @starts m hm he hid hg hs =>
    have hserved := served_dispatch he hroom e.request e.channel e.outer e.nested
    refine ⟨hid, ?_⟩
    intro nested summary hmem
    have hstrand := mem_strand_of_mem_journal (i := e.id) hmem rfl
    rw [hs] at hstrand
    exact hserved.kept nested summary (mem_journal_of_mem_strand hstrand)
  | stirs hbefore hnext ih => exact hnext.served hbefore.balances.1 ih

namespace Machine

variable {settings : Settings} {m started : Machine} {job : Job}

/--
Between two jobs the gauge shows the jobs that are queued. If requests are shed, one that comes
while the gauge is not below the bound is answered, and nothing else is done about it. One that
comes below the bound is not refused at any later point. As long as only dispatches use the pool,
and all of their jobs are prompt, the gauge does not pass the bound. If requests block, nobody is
refused.
-/
theorem Stirred.refuses_only_at_bound (h : Stirred settings m) :
    m.pool.metrics.depth = .ofNat m.pool.waiting.length ∧
    (settings.pool.backpressure = .shed → settings.pool.queueBound ≤ m.pool.metrics.depth →
      ∀ request channel outer nested,
        m.Refuses request channel outer nested (m.dispatch request channel outer nested)) ∧
    (∀ e : Entry, e.Precedes settings m → e.engine.pool.metrics.depth < e.engine.pool.queueBound →
      ∀ nested summary, .finished e.id nested summary ∈ m.journal → summary.disposition ≠ .shed) ∧
    (settings.pool.backpressure = .shed → Orderly settings m →
      m.pool.metrics.depth ≤ settings.pool.queueBound) ∧
    (settings.pool.backpressure = .block → m.pool.metrics.shed = 0 ∧ m.metrics.shed = 0 ∧
      ∀ i nested summary, .finished i nested summary ∈ m.journal →
        summary.disposition ≠ .shed) := by
  refine ⟨h.gauged.depth, ?_, ?_, ?_, ?_⟩
  . intro hmode hle request channel outer nested
    exact refuses_dispatch (h.gauged.isFull_iff.mpr ⟨hmode, hle⟩) request channel outer nested
  . intro e he hlt
    refine (he.served ?_).kept
    unfold Pool.isFull
    rw [decide_eq_false (UInt64.not_le.mpr hlt), Bool.and_false]
  . exact fun hmode horderly => horderly.depth_le hmode
  . intro hmode
    have hshed := h.shed_eq_zero_of_block hmode
    exact ⟨h.gauged.shed.trans hshed, hshed, h.welcoming hmode⟩

end Machine

/-- Settings under which requests are refused as soon as one job is queued. -/
def Settings.tight : Settings :=
  { Settings.plain with pool := { PoolConfig.default with queueBound := 1, backpressure := .shed } }

namespace Machine

variable {m started : Machine} {job : Job}

/-- The first request for an engine whose only page refuses it. -/
def crowding : Entry := ⟨single .tight [refusingPage], .new .zero .get "/", 0, 0, false⟩

/-- A second request comes while the job of the first one is queued. -/
def crowded : Machine := crowding.entered.dispatch (.new .zero .get "/") 0 0 false

theorem orderly_crowding : Orderly .tight crowding.entered := by
  have hconnected : Orderly .tight crowding.engine :=
    .calm (.new [refusingPage] []) (.connect _ rfl) (fun _ hmem => absurd hmem List.not_mem_nil)
  refine hconnected.calm (.dispatch _ Nat.zero_lt_one) ?_
  intro job hmem
  cases List.mem_singleton.mp hmem
  nofun

theorem orderly_crowded : Orderly .tight crowded := by
  refine orderly_crowding.calm (.dispatch _ Nat.zero_lt_one) ?_
  intro job hmem
  cases List.mem_singleton.mp hmem
  nofun

theorem settle_one (hstart : m.startJob? = some (job, started)) :
    m.settle 1 = (started.work job).1.endJob (started.work job).2 := by
  simp [settle, next?, runJob?, hstart]

theorem orderly_done : Orderly .tight (crowded.settle 1) := by
  have hstart : crowded.startJob? = some _ := rfl
  rw [settle_one hstart]
  refine orderly_crowded.work hstart ⟨?_, rfl⟩
  intro s plan hsuspended
  cases hsuspended

theorem precedes_done : crowding.Precedes .tight (crowded.settle 1) := by
  have hentered : crowding.Precedes .tight crowding.entered :=
    .starts orderly_crowding.stirred (reachable_single .tight [refusingPage]).sane.1
      Nat.zero_lt_one .refl rfl
  have hcrowded : crowding.entered.Reaches crowded := .single (.dispatch _ Nat.zero_lt_one)
  exact hentered.reaches (hcrowded.trans (reaches_settle _ 1))

theorem admission_of_crowding :
    crowding.entered.pool.metrics.depth = 1 ∧
    crowding.entered.Refuses (.new .zero .get "/") 0 0 false crowded ∧
    (∃ summary, .finished 0 false summary ∈ (crowded.settle 1).journal ∧
      summary.disposition ≠ .shed) ∧
    (crowded.settle 1).pool.metrics.depth ≤ 1 ∧
    counting.pool.metrics.shed = 0 := by
  obtain ⟨hdepth, hrefuses, -⟩ := Stirred.refuses_only_at_bound orderly_crowding.stirred
  obtain ⟨-, -, hserved, hbound, -⟩ := Stirred.refuses_only_at_bound orderly_done.stirred
  obtain ⟨-, -, -, -, hblock⟩ :=
    Stirred.refuses_only_at_bound (stirred_entered.reaches reaches_counting)
  refine ⟨hdepth, hrefuses rfl (by decide) _ 0 0 false, ?_, hbound rfl orderly_done, ?_⟩
  . have hmem : .finished 0 false _ ∈ (crowded.settle 1).journal :=
      List.mem_of_getElem? (i := 8) rfl
    exact ⟨_, hmem, hserved crowding precedes_done (by decide) false _ hmem⟩
  . exact (hblock rfl).1

end Machine
end PageDispatch
