import PageDispatch.Proofs.Dispatch.Passage
import PageDispatch.Proofs.Dispatch.Tally
import PageDispatch.Proofs.Machine.Talk

/-!
This module contains the moves that an engine makes for its dispatches: it lets them in or refuses
them, queues and parks their runs, and answers them or gives them up. Every operation is a sequence
of moves, and every answer has its reason in the settings and in what was reported before.
-/

namespace PageDispatch

/--
Why a dispatch ends in a certain way, and with which response. The fallback answers where no page
does, and where the hook panicked on being told about a failure.
-/
inductive Dispatch.Earns (settings : Settings) (journal : List Event) (d : Dispatch) :
    Disposition → Response → Prop
  | page (hpage : d.current ≠ none) (written : Accumulator) :
    Earns settings journal d .answered written.toResponse
  | failure (hpage : d.current ≠ none) (written : Accumulator) {report : FailureReport}
    (hreport : .reporting (some d.id) report ∈ journal)
    (h : (settings.hook report).result = .ok ()) :
    Earns settings journal d .failed written.toResponse
  | fatal (hpage : d.current ≠ none) {report : FailureReport} {payload : PanicPayload}
    (hreport : .reporting (some d.id) report ∈ journal)
    (h : (settings.hook report).result = .error payload) :
    Earns settings journal d .failed
      (settings.fallback.onError d.context.request
        ⟨report.failure, payload.message⟩).orMinimal.closing
  | notFound (hpage : d.current = none) (htried : d.pages.length ≤ d.tried) :
    Earns settings journal d .notFound
      (settings.fallback.notFound d.context.request).orMinimal
  | shed (hpage : d.current = none) :
    Earns settings journal d .shed
      (settings.fallback.overloaded d.context.request).orMinimal

/-- Whether an answer is what units wrote, or stands for a failure that the hook was told about. -/
inductive Answer.Stands (settings : Settings) (journal : List Event) (owner : Option Nat)
    (a : Answer) : Prop
  | page (written : Accumulator) (hr : a.response = written.toResponse)
    (hkind : a.record.kind ≠ .failure) (hfatal : a.fatal = none)
  | failure (written : Accumulator) {report : FailureReport} (hr : a.response = written.toResponse)
    (hkind : a.record.kind = .failure) (hreport : .reporting owner report ∈ journal)
    (hfatal : a.fatal
      = match (settings.hook report).result with
        | .ok () => none
        | .error payload => some ⟨report.failure, payload.message⟩)

/-- Whether a run that has come to its end with an answer has one that stands. -/
def Progress.Stands (settings : Settings) (journal : List Event) (owner : Option Nat) :
    Progress → Prop
  | .ended (.answered a) => a.Stands settings journal owner
  | _ => True

namespace Machine

/-- Whether the request of a dispatch has arrived. -/
def Heard (m : Machine) (d : Dispatch) : Prop :=
  .received d.id d.channel d.context.request ∈ m.journal

/-- Whether the dispatch that a run belongs to, if any, has arrived and is trying a page. -/
def HeardOf (m : Machine) (owner : Owner) : Prop :=
  ∀ d, owner = .dispatch d → m.Heard d ∧ d.current ≠ none

/-- What an engine does at a time. -/
inductive Move (m : Machine) : Machine → Prop
  | talk {es : List Event} {m' : Machine} (h : m.Talks es m') : Move m m'
  | log {e : Event} (h : e.summary? = none) : Move m (m.log e)
  | learn (pages : List Page) (decorators : List Decorator) (patterns : PatternCache) :
    Move m { m with pages, decorators, patterns }
  | count : Move m { m with metrics := m.metrics.recordPage }
  | submit {job : Job} (h : m.HeardOf job.run.owner) : Move m (m.submit job)
  | park {s : Suspension} (h : m.HeardOf s.run.owner) (after : Nat) (closes : Bool)
    (outer : ChannelId) (r : Resolved) :
    Move m (m.schedule after (.resolve (.registered s) closes outer r))
  | accept {d : Dispatch} (h : m.pool.isFull = false) : Move m (m.receive d)
  | refuse {d : Dispatch} (hid : d.id = m.dispatches) (hpage : d.current = none)
    (h : m.pool.isFull = true) :
    Move m ((m.receive d).tryAdmit.2.shed d)
  | answer {d : Dispatch} {disposition : Disposition} {r : Response} (hheard : m.Heard d)
    (hne : disposition ≠ .shed) (h : d.Earns m.settings m.journal disposition r) :
    Move m (m.finishWith d disposition r)
  | abandon (d : Dispatch) : Move m (m.finish d .abandoned none)

abbrev Moves : Machine → Machine → Prop := Relation.ReflTransGen Move

/-- What no move takes back. -/
structure Extends (m m' : Machine) : Prop where
  settings : m'.settings = m.settings
  dispatches : m.dispatches ≤ m'.dispatches
  journal : m.journal <+: m'.journal

variable {m m' m'' : Machine} {d : Dispatch} {outer : ChannelId} {es : List Event} {run : Run}
  {owner : Owner} {disposition : Disposition} {r : Response}

theorem Extends.refl : m.Extends m := ⟨rfl, Nat.le_refl _, List.prefix_refl _⟩

theorem Extends.trans (h : m.Extends m') (h' : m'.Extends m'') : m.Extends m'' :=
  ⟨h'.settings.trans h.settings, h.dispatches.trans h'.dispatches, h.journal.trans h'.journal⟩

theorem Talks.extends (h : m.Talks es m') : m.Extends m' :=
  ⟨h.settings, Nat.le_of_eq h.dispatches.symm, h.journal ▸ List.prefix_append _ _⟩

theorem extends_finish (status : Option Status) : m.Extends (m.finish d disposition status) :=
  ⟨rfl, Nat.le_refl _, List.prefix_append _ _⟩

theorem extends_finishWith : m.Extends (m.finishWith d disposition r) := by
  obtain ⟨es, hdeliver⟩ := exists_talks_deliver (m := m) (d := d) r
  exact hdeliver.extends.trans (extends_finish _)

theorem extends_receive : m.Extends (m.receive d) :=
  ⟨rfl, Nat.le_succ _, List.prefix_append _ _⟩

/-- A dispatch that is refused is one that is received, and then answered. -/
theorem shed_eq : m.shed d
      =
    (m.guarded d.outer (m.settings.fallback.overloaded d.context.request)).1.finishWith d .shed
      (m.settings.fallback.overloaded d.context.request).orMinimal := by
  unfold shed
  dsimp only
  rw [guarded_snd]

theorem extends_shed : m.Extends (m.shed d) := by
  rw [shed_eq]
  exact (talks_guarded _).extends.trans extends_finishWith

theorem Move.extends (h : m.Move m') : m.Extends m' := by
  cases h with
  | talk h => exact h.extends
  | log h => exact { Extends.refl (m := m) with journal := List.prefix_append _ _ }
  | learn pages decorators patterns => exact { Extends.refl (m := m) with }
  | count => exact { Extends.refl (m := m) with }
  | submit h => exact { Extends.refl (m := m) with }
  | park h after closes outer r => exact { Extends.refl (m := m) with }
  | accept h => exact extends_receive
  | @refuse d hid hpage h =>
    have hadmitted : (m.receive d).Extends (m.receive d).tryAdmit.2 := { Extends.refl with }
    exact (extends_receive.trans hadmitted).trans extends_shed
  | answer hheard hne h => exact extends_finishWith
  | abandon d => exact extends_finish none

theorem Moves.extends (h : Moves m m') : m.Extends m' := by
  induction h with
  | refl => exact .refl
  | tail _ hlast ih => exact ih.trans hlast.extends

theorem Heard.of_extends (h : m.Heard d) (he : m.Extends m') : m'.Heard d := he.journal.subset h

theorem HeardOf.of_extends (h : m.HeardOf owner) (he : m.Extends m') : m'.HeardOf owner :=
  fun d hd => (h d hd).imp_left fun hheard => hheard.of_extends he

theorem heardOf_dispatch (h : m.Heard d) (hpage : d.current ≠ none) : m.HeardOf (.dispatch d) := by
  intro other hother
  cases hother
  exact ⟨h, hpage⟩

theorem earns_of_extends (h : d.Earns m.settings m.journal disposition r) (he : m.Extends m') :
    d.Earns m'.settings m'.journal disposition r := by
  rw [he.settings]
  cases h with
  | page hpage written => exact .page hpage written
  | failure hpage written hreport h => exact .failure hpage written (he.journal.subset hreport) h
  | fatal hpage hreport h => exact .fatal hpage (he.journal.subset hreport) h
  | notFound hpage htried => exact .notFound hpage htried
  | shed hpage => exact .shed hpage

theorem stands_of_extends {a : Answer} {i : Option Nat} (h : a.Stands m.settings m.journal i)
    (he : m.Extends m') : a.Stands m'.settings m'.journal i := by
  rw [he.settings]
  cases h with
  | page written hr hkind hfatal => exact .page written hr hkind hfatal
  | failure written hr hkind hreport hfatal =>
    exact .failure written hr hkind (he.journal.subset hreport) hfatal

theorem Talks.moves (h : m.Talks es m') : Moves m m' := .single (.talk h)

theorem moves_log {e : Event} (h : e.summary? = none) : Moves m (m.log e) := .single (.log h)

/-- Foreign code has a say, and then the dispatch is answered. -/
theorem Talks.moves_answer (h : m.Talks es m') (hd : m.Heard d) (hne : disposition ≠ .shed)
    (hearns : d.Earns m.settings m.journal disposition r) :
    Moves m (m'.finishWith d disposition r) :=
  h.moves.tail (.answer (hd.of_extends h.extends) hne (earns_of_extends hearns h.extends))

theorem moves_notFound (hd : m.Heard d) (htried : d.pages.length ≤ d.tried) :
    Moves m (m.notFound d) := by
  unfold notFound
  split
  . dsimp only
    rw [guarded_snd]
    have hcleared : m.Heard { d with current := none } := hd
    exact (talks_guarded _).moves_answer hcleared nofun (.notFound rfl htried)
  . exact .single (.abandon d)

theorem moves_conclude {a : Answer} (hd : m.Heard d) (hpage : d.current ≠ none)
    (ha : a.Stands m.settings m.journal (some d.id)) : Moves m (m.conclude d a) := by
  unfold conclude
  dsimp only
  cases ha with
  | page written hr hkind hfatal =>
    rw [hfatal, if_neg hkind, hr]
    exact .single (.answer hd nofun (.page hpage written))
  | @failure written report hr hkind hreport hfatal =>
    rw [hfatal, if_pos hkind, hr]
    cases htold : (m.settings.hook report).result with
    | ok _ => exact .single (.answer hd nofun (.failure hpage written hreport htold))
    | error payload =>
      dsimp only
      rw [guarded_snd]
      exact (talks_guarded _).moves_answer hd nofun (.fatal hpage hreport htold)

section Failures

variable {unit : String} {position : Option Nat} {failure : UnitFailure} {own : Accumulator}

theorem moves_fail : Moves m (m.fail run unit position failure own).1 := by
  rw [fail_fst]
  split
  . exact (moves_log rfl).trans (talks_call _).moves
  . exact .refl

theorem stands_fail {a : Answer} (ha : (m.fail run unit position failure own).2 = some a) :
    a.Stands (m.fail run unit position failure own).1.settings
      (m.fail run unit position failure own).1.journal run.owner.id? := by
  cases hopen : m.isOpen run.channel with
  | false =>
    rw [fail_of_closed hopen] at ha
    cases ha
  | true =>
    rw [fail_of_open hopen] at ha ⊢
    cases ha
    dsimp only
    refine stands_of_extends (m := m.log (.reporting run.owner.id? _)) ?_ (talks_call _).extends
    exact .failure _ rfl rfl (List.mem_append_right _ List.mem_cons_self) rfl

end Failures

section Pages

theorem talks_decorate (context : Context) (decorators : List Decorator) (chain : HandlerChain) :
    ∃ es, m.Talks es (m.decorate outer context decorators chain).1 := by
  induction decorators generalizing m chain with
  | nil => exact ⟨[], .refl⟩
  | cons decorator rest ih =>
    have hcall := @talks_call m outer _ (decorator.decorate chain.view context)
    unfold decorate
    split
    . next heq =>
      rw [heq] at hcall
      obtain ⟨es, hrest⟩ := ih _
      exact ⟨_, hcall.trans hrest⟩
    . next heq =>
      rw [heq] at hcall
      exact ⟨_, hcall⟩
    . next heq =>
      rw [heq] at hcall
      exact ⟨_, hcall⟩

theorem talks_buildChain (page : Page) : ∃ es, m.Talks es (m.buildChain d page).1 := by
  have hcall := @talks_call m d.outer _ (page.build d.context)
  rw [buildChain_fst]
  unfold construct
  split
  . next heq =>
    rw [heq] at hcall
    obtain ⟨es, hrest⟩ := talks_decorate _ _ _
    exact ⟨_, hcall.trans hrest⟩
  . next heq =>
    rw [heq] at hcall
    exact ⟨_, hcall⟩
  . next heq =>
    rw [heq] at hcall
    exact ⟨_, hcall⟩

theorem moves_breakOff (hd : m.Heard d) (hpage : d.current ≠ none) (page : String)
    (e : CauseChain) : Moves m (m.breakOff d page e) := by
  have hfail := @moves_fail m
    (.ofChain (.empty page) d.context d.channel d.outer (.dispatch d)) "<page>" none (.pageBuild e)
    .empty
  have hstands := @stands_fail m
    (.ofChain (.empty page) d.context d.channel d.outer (.dispatch d)) "<page>" none (.pageBuild e)
    .empty
  unfold breakOff failPage
  generalize m.fail _ _ _ _ _ = done at hfail hstands
  obtain ⟨failed, answer⟩ := done
  cases answer with
  | some a =>
    exact hfail.trans (moves_conclude (hd.of_extends (Moves.extends hfail)) hpage (hstands rfl))
  | none => exact hfail.tail (.abandon d)

theorem moves_tryPage (hd : m.Heard d) (hpage : d.current ≠ none) (page : Page) :
    Moves m (m.tryPage d page) := by
  have hcounted : Moves m
      (({ m with metrics := m.metrics.recordPage } : Machine).log (.building d.id page.name)) :=
    (Relation.ReflTransGen.single .count).tail (.log rfl)
  obtain ⟨es, hbuilt⟩ := talks_buildChain
    (m := ({ m with metrics := m.metrics.recordPage } : Machine).log (.building d.id page.name))
    (d := d) page
  have hmoves := hcounted.trans hbuilt.moves
  unfold tryPage
  dsimp only
  generalize buildChain _ d page = done at hmoves
  obtain ⟨built, result⟩ := done
  have hheard := hd.of_extends (Moves.extends hmoves)
  cases result with
  | ok chain => exact hmoves.tail (.submit (heardOf_dispatch hheard hpage))
  | error e => exact hmoves.trans (moves_breakOff hheard hpage _ _)

theorem moves_advance (hd : m.Heard d) : Moves m (m.advance d) := by
  unfold advance
  split
  . next hnone => exact moves_notFound hd (List.getElem?_eq_none_iff.mp hnone)
  . next page _ => exact moves_tryPage (d := d.trying page) hd nofun page

theorem moves_complete {result : ChainResult} (howner : m.HeardOf owner)
    (hresult : (Progress.ended result).Stands m.settings m.journal owner.id?) :
    Moves m (m.complete owner result) := by
  cases owner with
  | caller => exact moves_log rfl
  | dispatch d =>
    have ⟨hd, hpage⟩ := howner d rfl
    cases result with
    | answered a => exact moves_conclude hd hpage hresult
    | rejected evaluated rejecter =>
      have hlog : Moves m (m.log (.rejected d.id d.tried)) := moves_log rfl
      exact hlog.trans (moves_advance (hd.of_extends (Moves.extends hlog)))
    | abandoned evaluated => exact .single (.abandon d)

theorem dispatch_of_vacant {request : Request} {channel : ChannelId} {nested : Bool}
    (h : m.pool.isFull = false) :
    m.dispatch request channel outer nested
      =
    (m.receive (m.newDispatch request channel outer nested)).advance
      (m.newDispatch request channel outer nested) := by
  unfold dispatch
  dsimp only
  generalize m.newDispatch request channel outer nested = d
  have hpool : (m.receive d).pool.tryAdmit = (true, m.pool) :=
    Entry.tryAdmit_of_vacant h
  have hadmitted : (m.receive d).tryAdmit = (true, m.receive d) := by
    unfold tryAdmit
    rw [hpool]
    rfl
  rw [hadmitted]

theorem dispatch_of_isFull {request : Request} {channel : ChannelId} {nested : Bool}
    (h : m.pool.isFull = true) :
    m.dispatch request channel outer nested
      =
    (m.receive (m.newDispatch request channel outer nested)).tryAdmit.2.shed
      (m.newDispatch request channel outer nested) := by
  unfold dispatch
  dsimp only
  generalize m.newDispatch request channel outer nested = d
  have hrefused : (m.receive d).tryAdmit.1 = false := by
    have hfull : (m.receive d).pool.isFull = true := h
    unfold tryAdmit Pool.tryAdmit
    rw [hfull]
    rfl
  generalize (m.receive d).tryAdmit = done at hrefused
  obtain ⟨admitted, next⟩ := done
  subst hrefused
  rfl

theorem moves_dispatch (request : Request) (channel : ChannelId) (nested : Bool) :
    Moves m (m.dispatch request channel outer nested) := by
  cases hfull : m.pool.isFull with
  | false =>
    rw [dispatch_of_vacant hfull]
    have haccepted : Moves m (m.receive (m.newDispatch request channel outer nested)) :=
      .single (.accept hfull)
    exact haccepted.trans (moves_advance (List.mem_append_right _ List.mem_cons_self))
  | true =>
    rw [dispatch_of_isFull hfull]
    exact .single (.refuse rfl rfl hfull)

end Pages

/-- Whether a turn consists of moves, and an answer that it comes to stands. -/
structure Turns (m : Machine) (owner : Option Nat) (done : Machine × Progress) : Prop where
  moves : Moves m done.1
  stands : done.2.Stands done.1.settings done.1.journal owner

section Turns

variable {i : Option Nat} {done : Machine × Progress}

theorem Turns.after (h : m'.Turns i done) (hmoves : Moves m m') : m.Turns i done :=
  ⟨hmoves.trans h.moves, h.stands⟩

theorem turns_failRun (unit : String) (position : Option Nat) (failure : UnitFailure)
    (own : Accumulator) : m.Turns run.owner.id? (m.failRun run unit position failure own) := by
  have hmoves := @moves_fail m run unit position failure own
  have hstands := @stands_fail m run unit position failure own
  unfold failRun
  generalize m.fail run unit position failure own = done at hmoves hstands
  obtain ⟨failed, answer⟩ := done
  cases answer with
  | some a => exact ⟨hmoves, hstands rfl⟩
  | none => exact ⟨hmoves, trivial⟩

theorem turns_respond (unit : String) (position : Nat) (status : Status)
    (message : Option ResponseMessage) (own : Accumulator) :
    m.Turns run.owner.id? (m.respond run unit position status message own) := by
  have hanswer : ∀ {next : Machine} (written : Accumulator), Moves m next → m.Turns run.owner.id?
      (next, .ended (.answered (run.answer written unit (some position) .respondWith none))) :=
    fun written hmoves => ⟨hmoves, .page (run.response.merge written) rfl nofun rfl⟩
  unfold respond
  dsimp only
  split
  . exact hanswer _ .refl
  . exact hanswer _ .refl
  . next value =>
    have hcall := (@talks_call m run.outer _ (m.settings.codec value)).moves
    split
    . next heq =>
      rw [heq] at hcall
      exact hanswer _ hcall
    . next heq =>
      rw [heq] at hcall
      exact (turns_failRun _ _ _ _).after hcall
    . next heq =>
      rw [heq] at hcall
      exact ⟨hcall, trivial⟩

theorem turns_apply (unit : String) (position : Nat) (outcome : Outcome) (own : Accumulator) :
    m.Turns run.owner.id? (m.apply run unit position outcome own) := by
  unfold apply
  split
  . cases outcome with
    | rejected =>
      dsimp only
      split
      . exact turns_failRun _ _ _ _
      . exact ⟨.refl, trivial⟩
    | consumed objects locked => exact ⟨.refl, trivial⟩
    | respondWith status message => exact turns_respond _ _ _ _ _
  . exact ⟨.refl, trivial⟩

theorem turns_exhausted : m.Turns run.owner.id? (m.exhausted run) := by
  unfold exhausted
  split
  . exact turns_failRun _ _ _ _
  . exact ⟨.refl, trivial⟩

theorem turns_resume (s : Suspension) (r : Resolved) :
    m.Turns s.run.owner.id? (m.resume s r) := by
  unfold resume
  split
  . exact turns_apply _ _ _ _
  . exact turns_failRun _ _ _ _
  . exact turns_failRun _ _ _ _

theorem turns_judge (unit : String) (position : Nat) (own : Accumulator) (ending : UnitEnding) :
    m.Turns run.owner.id? (m.judge run unit position own ending) := by
  cases ending with
  | decided outcome => exact turns_apply _ _ _ _
  | deferred plan => exact ⟨.refl, trivial⟩
  | failed e => exact turns_failRun _ _ _ _
  | panicked payload => exact turns_failRun _ _ _ _

theorem moves_perform (action : UnitAction) : Moves m (m.perform outer action) := by
  cases action with
  | signal s => exact (talks_signal s).moves
  | registerPage page => exact .single (.learn (m.pages ++ [page]) m.decorators m.patterns)
  | addDecorator decorator =>
    exact .single (.learn m.pages (m.decorators ++ [decorator]) m.patterns)
  | dispatch request => exact (talks_connect _).moves.trans (moves_dispatch request _ true)

theorem moves_performAll (actions : List UnitAction) : Moves m (m.performAll outer actions) := by
  unfold performAll
  induction actions generalizing m with
  | nil => exact .refl
  | cons action rest ih => exact (moves_perform action).trans ih

theorem turns_evaluate (position : Nat) (u : HandlerUnit) :
    m.Turns run.owner.id? (m.evaluate run position u) := by
  unfold evaluate
  split
  . exact ⟨.refl, trivial⟩
  . have hlog : ∀ name view, Moves m (m.log (.evaluating run.owner.id? position name view)) :=
      fun _ _ => moves_log rfl
    have hjudge := fun next => @turns_judge next (run.edited (u.evaluate run.view).edits)
    exact (hjudge _ _ _ _ _).after ((hlog _ _).trans (moves_performAll _))

theorem moves_instantiate (spec : UnitSpec) : Moves m (m.instantiate run spec).1 := by
  rw [instantiate_fst]
  have hlearn : Moves m { m with
      patterns := (m.settings.registry.instantiate m.patterns spec run.context).2 } :=
    .single (.learn m.pages m.decorators _)
  exact (hlearn.trans (moves_log rfl)).trans (talks_call _).moves

theorem turns_process (position : Nat) (element : ChainElement) :
    m.Turns run.owner.id? (m.process run position element) := by
  cases element with
  | unit u => exact turns_evaluate _ _
  | spec spec =>
    have hmade := @moves_instantiate m run spec
    unfold process
    dsimp only
    split
    . next heq =>
      rw [heq] at hmade
      exact (turns_evaluate _ _).after hmade
    . next heq =>
      rw [heq] at hmade
      exact (turns_failRun _ _ _ _).after hmade

theorem turns_step : m.Turns run.owner.id? (m.step run) := by
  unfold step
  split
  . split
    . exact turns_exhausted
    . next element past hnext => exact @turns_process m (run.past past) _ _
  . exact ⟨.refl, trivial⟩

theorem turns_turn (job : Job) : m.Turns job.run.owner.id? (m.turn job) := by
  cases job with
  | step run => exact turns_step
  | resume s r => exact turns_resume s r

end Turns

section Steps

theorem exists_talks_closing (closes : Bool) (outer : ChannelId) :
    ∃ es, m.Talks es (if closes then m.close outer else m) := by
  split
  . exact ⟨_, talks_close outer⟩
  . exact ⟨_, .refl⟩

theorem moves_suspend {s : Suspension} (h : m.HeardOf s.run.owner) (plan : DeferralPlan) :
    Moves m (m.suspend s plan) := by
  unfold suspend
  cases plan.after with
  | some after => exact .single (.park h after plan.closes s.run.outer plan.resolved)
  | none =>
    obtain ⟨es, hclosed⟩ := exists_talks_closing (m := m) plan.closes s.run.outer
    exact hclosed.moves.tail (.submit (h.of_extends hclosed.extends))

theorem moves_proceed {p : Progress} {evaluated : Nat} (howner : run.owner = owner)
    (hp : p.Of run) (h : m.HeardOf owner) (hstands : p.Stands m.settings m.journal owner.id?) :
    Moves m (m.proceed owner evaluated p).1 := by
  cases p with
  | continues later =>
    rw [← howner, ← hp.owner] at h
    exact .single (.submit h)
  | suspended s plan =>
    rw [← howner, ← hp.owner] at h
    exact moves_suspend h plan
  | ended result => exact moves_complete h hstands
  | escaped =>
    have hlog : Moves m (m.log (.escaped owner.id?)) := moves_log rfl
    exact hlog.trans (moves_complete (h.of_extends (Moves.extends hlog)) trivial)

theorem moves_work {job : Job} (hm : m.Sane) (hfit : m.Fits job.run)
    (h : m.HeardOf job.run.owner) : Moves m (m.work job).1 := by
  have hturn := turns_turn (m := m) job
  have hp := keeps_progress_of (keeps_turn (hm.knows hfit))
  exact hturn.moves.trans
    (moves_proceed rfl hp (h.of_extends (Moves.extends hturn.moves)) hturn.stands)

theorem moves_runFailedPage (page : String) (context : Context) (channel : ChannelId)
    (e : CauseChain) : Moves m (m.runFailedPage page context channel e) := by
  have hfail := @moves_fail m (.ofChain (.empty page) context channel channel .caller) "<page>" none
    (.pageBuild e) .empty
  unfold runFailedPage failPage
  generalize m.fail _ _ _ _ _ = done at hfail
  obtain ⟨failed, answer⟩ := done
  cases answer with
  | some a => exact hfail.trans (moves_log rfl)
  | none => exact hfail.trans (moves_log rfl)

end Steps

/-- What a step changes before any move: the order of jobs, the timers, or a channel. -/
structure Shifts (m next : Machine) : Prop where
  settings : next.settings = m.settings
  dispatches : next.dispatches = m.dispatches
  metrics : next.metrics = m.metrics
  journal : next.journal = m.journal
  pool : ∃ waiting, waiting.Perm m.pool.waiting ∧ next.pool = { m.pool with waiting }
  flights : ∀ f, next.Holds f → m.Holds f

section Stirs

variable {settings : Settings} {f : Flight} {job : Job} {started next : Machine}

theorem Shifts.refl : m.Shifts m :=
  ⟨rfl, rfl, rfl, rfl, ⟨m.pool.waiting, .refl _, rfl⟩, fun _ hf => hf⟩

theorem Shifts.extends (h : m.Shifts next) : m.Extends next :=
  ⟨h.settings, Nat.le_of_eq h.dispatches.symm, h.journal ▸ List.prefix_refl _⟩

theorem shifts_takeTimer {before after : List Timer} {timer : Timer} (now : Nat)
    (h : m.timers = before ++ timer :: after) :
    m.Shifts { m with timers := before ++ after, clock := now } :=
  { Shifts.refl (m := m) with flights := fun _ hf => holds_of_holds_takeTimer h hf }

theorem exists_talks_ring {alarm : Alarm} (h : alarm.parked? = none) :
    ∃ es, m.Talks es (m.ring alarm) := by
  cases alarm with
  | deliver i channel outer r => exact ⟨_, talks_sendNow i channel r⟩
  | resolve slot closes outer r =>
    cases slot with
    | registered s => cases h
    | waiting => exact exists_talks_closing closes outer
    | resolved first => exact exists_talks_closing closes outer
    | done => exact exists_talks_closing closes outer

theorem Calm.moves (h : m.Calm m') : ∃ next, m.Shifts next ∧ Moves next m' := by
  cases h with
  | @reorder waiting hperm =>
    refine ⟨{ m with pool := { m.pool with waiting } },
      { Shifts.refl (m := m) with pool := ⟨waiting, hperm, rfl⟩, flights := ?_ }, .refl⟩
    intro f hf
    cases f with
    | queued job => exact hperm.mem_iff.mp hf
    | parked s closes outer r => exact hf
  | ring now htimers hp =>
    obtain ⟨es, hring⟩ := exists_talks_ring hp
    exact ⟨_, shifts_takeTimer now htimers, hring.moves⟩
  | dispatch request hc => exact ⟨m, .refl, moves_dispatch request _ false⟩
  | runChain chain context hc => exact ⟨m, .refl, .single (.submit nofun)⟩
  | connect wire hw => exact ⟨m, .refl, (talks_connect wire).moves⟩
  | close id => exact ⟨m, .refl, (talks_close id).moves⟩
  | @rewire id wire hw => exact ⟨m.rewire id wire, { Shifts.refl (m := m) with }, .refl⟩
  | registerPage page => exact ⟨m, .refl, .single (.learn _ m.decorators m.patterns)⟩
  | addDecorator decorator => exact ⟨m, .refl, .single (.learn m.pages _ m.patterns)⟩

theorem extends_startJob? (h : m.startJob? = some (job, started)) : m.Extends started := by
  obtain ⟨rest, -, rfl⟩ := startJob?_eq_some h
  exact { Extends.refl (m := m) with }

theorem extends_endJob (panicked : Bool) : m.Extends (m.endJob panicked) :=
  { Extends.refl (m := m) with }

/-- Whether the requests of all runs on their way have arrived. -/
def Attentive (m : Machine) : Prop := ∀ f, m.Holds f → m.HeardOf f.run.owner

/-- A step consists of moves, if it is no job; and so does a job. -/
theorem Stirs.moves (h : m.Stirs m') (hm : m.Sane) (hheard : m.Attentive) :
    (∃ job started done panicked, m.startJob? = some (job, started) ∧ Moves started done ∧
      m' = done.endJob panicked) ∨
    ∃ next, m.Shifts next ∧ Moves next m' := by
  cases h with
  | @work job started hstart =>
    have hjob := hheard _ (holds_of_startJob? hstart)
    have hmoves := moves_work (hm.startJob? hstart) (hm.fits_startJob? hstart)
      (hjob.of_extends (extends_startJob? hstart))
    exact .inl ⟨job, started, _, _, hstart, hmoves, rfl⟩
  | @wake before after timer s closes outer r now htimers halarm =>
    have hmem : timer ∈ m.timers := by
      rw [htimers]
      exact List.mem_append_right _ List.mem_cons_self
    have hheld : m.HeardOf s.run.owner :=
      hheard (.parked s closes outer r) ⟨timer.due, by rw [← halarm]; exact hmem⟩
    have hshifts := shifts_takeTimer now htimers
    rw [halarm]
    refine .inr ⟨_, hshifts, ?_⟩
    -- its channel may be closed first, and then the run that was parked is queued again
    obtain ⟨es, hclosed⟩ :=
      exists_talks_closing (m := { m with timers := before ++ after, clock := now }) closes outer
    have hextends := hshifts.extends.trans hclosed.extends
    have hresumed : HeardOf _ (Job.resume s r).run.owner := hheld.of_extends hextends
    exact hclosed.moves.tail (.submit hresumed)
  | failPage page context e hc => exact .inr ⟨m, .refl, moves_runFailedPage page context _ e⟩
  | calm hcalm => exact .inr hcalm.moves

theorem holds_of_finishWith (hf : (m.finishWith d disposition r).Holds f) : m.Holds f := by
  obtain ⟨es, hdeliver⟩ := exists_talks_deliver (m := m) (d := d) r
  exact hdeliver.flights f hf

theorem Move.holds (h : m.Move m') (hf : m'.Holds f) : m.Holds f ∨ m.HeardOf f.run.owner := by
  cases h with
  | talk h => exact .inl (h.flights f hf)
  | log h => exact .inl hf
  | learn pages decorators patterns => exact .inl hf
  | count => exact .inl hf
  | submit h =>
    cases holds_of_submit hf with
    | inl hold => exact .inl hold
    | inr hnew =>
      subst hnew
      exact .inr h
  | park h after closes outer r =>
    cases holds_of_schedule hf with
    | inl hold => exact .inl hold
    | inr hnew =>
      obtain ⟨_, _, _, _, halarm, rfl⟩ := hnew
      cases halarm
      exact .inr h
  | accept h => exact .inl hf
  | @refuse d hid hpage h =>
    rw [shed_eq] at hf
    have hold := (talks_guarded _).flights f (holds_of_finishWith hf)
    have hwaiting := (sameWork_tryAdmit (m := m.receive d)).holds hold
    exact .inl hwaiting
  | answer hheard hne h => exact .inl (holds_of_finishWith hf)
  | abandon d => exact .inl hf

theorem Moves.attentive (h : Moves m m') (hm : m.Attentive) : m'.Attentive := by
  induction h with
  | refl => exact hm
  | tail _ hlast ih =>
    intro f hf
    cases hlast.holds hf with
    | inl hold => exact (ih f hold).of_extends hlast.extends
    | inr hnew => exact hnew.of_extends hlast.extends

theorem Stirred.attentive (h : Stirred settings m) : m.Attentive := by
  induction h with
  | new pages decorators => exact fun _ hf => absurd hf not_holds_new
  | next hbefore hnext ih =>
    obtain ⟨job, started, done, panicked, hstart, hmoves, rfl⟩ | ⟨next, hshifts, hmoves⟩ :=
      hnext.moves hbefore.sane ih
    . have hstarted : started.Attentive := fun f hf =>
        (ih f (holds_of_holds_started hstart hf)).of_extends (extends_startJob? hstart)
      intro f hf
      have hheld := (sameWork_endJob (m := done) panicked).holds hf
      exact (Moves.attentive hmoves hstarted f hheld).of_extends (extends_endJob panicked)
    . refine Moves.attentive hmoves ?_
      exact fun f hf => (ih f (hshifts.flights f hf)).of_extends hshifts.extends

end Stirs

section Finishes

variable {i : Nat} {nested : Bool} {summary : DispatchSummary}

/-- Talk finishes no dispatch. -/
theorem Talks.finished_mem (h : m.Talks es m') (hmem : .finished i nested summary ∈ m'.journal) :
    .finished i nested summary ∈ m.journal := by
  rw [h.journal] at hmem
  cases List.mem_append.mp hmem with
  | inl hold => exact hold
  | inr hnew => cases h.words _ hnew

theorem finished_mem_of_log {e : Event} (he : e.summary? = none)
    (hmem : .finished i nested summary ∈ (m.log e).journal) :
    .finished i nested summary ∈ m.journal := by
  cases List.mem_append.mp hmem with
  | inl hold => exact hold
  | inr hnew =>
    rw [← List.mem_singleton.mp hnew] at he
    cases he

theorem finished_mem_of_receive (hmem : .finished i nested summary ∈ (m.receive d).journal) :
    .finished i nested summary ∈ m.journal :=
  finished_mem_of_log (m := { m with
    metrics := m.metrics.recordRequest, dispatches := m.dispatches + 1 }) rfl hmem

theorem finished_mem_of_finish {status : Option Status}
    (hmem : .finished i nested summary ∈ (m.finish d disposition status).journal) :
    .finished i nested summary ∈ m.journal ∨
      i = d.id ∧ nested = d.nested ∧ summary = d.summary m.clock disposition status := by
  cases List.mem_append.mp hmem with
  | inl hold => exact .inl hold
  | inr hnew =>
    cases List.mem_singleton.mp hnew
    exact .inr ⟨rfl, rfl, rfl⟩

/-- How a dispatch came to its end: it was given up, or answered for a reason. -/
inductive Ended (m : Machine) (i : Nat) (nested : Bool) (summary : DispatchSummary) : Prop
  | abandoned (hd : summary.disposition = .abandoned)
  | answered {mid : Machine} {d : Dispatch} {disposition : Disposition} {r : Response}
    (hid : d.id = i) (hnested : d.nested = nested) (hheard : mid.Heard d)
    (hearns : d.Earns mid.settings mid.journal disposition r)
    (hsummary : summary = d.summary mid.clock disposition (some r.status))
    (he : (mid.finishWith d disposition r).Extends m)

theorem Ended.of_extends (h : m.Ended i nested summary) (he : m.Extends m') :
    m'.Ended i nested summary := by
  cases h with
  | abandoned hd => exact .abandoned hd
  | answered hid hnested hheard hearns hsummary hfinish =>
    exact .answered hid hnested hheard hearns hsummary (hfinish.trans he)

/-- A dispatch that is answered has ended for that reason. -/
theorem ended_finishWith (hheard : m.Heard d) (hearns : d.Earns m.settings m.journal disposition r)
    (hmem : .finished i nested summary ∈ (m.finishWith d disposition r).journal) :
    .finished i nested summary ∈ m.journal ∨
      (m.finishWith d disposition r).Ended i nested summary ∧ d.id = i ∧
        summary.disposition = disposition := by
  obtain ⟨es, hdeliver⟩ := exists_talks_deliver (m := m) (d := d) r
  cases finished_mem_of_finish hmem with
  | inl hold => exact .inl (hdeliver.finished_mem hold)
  | inr hnew =>
    obtain ⟨hid, hnested, hsummary⟩ := hnew
    rw [hdeliver.clock] at hsummary
    exact .inr ⟨.answered hid.symm hnested.symm hheard hearns hsummary .refl, hid.symm,
      hsummary ▸ rfl⟩

/-- What a move finishes has ended by it, and a request is refused only if the pool is full. -/
theorem Move.finished_mem (h : m.Move m') (hmem : .finished i nested summary ∈ m'.journal) :
    .finished i nested summary ∈ m.journal ∨
      m'.Ended i nested summary ∧
        (summary.disposition = .shed → m.pool.isFull = true ∧ m.dispatches ≤ i) := by
  cases h with
  | talk h => exact .inl (h.finished_mem hmem)
  | log h => exact .inl (finished_mem_of_log h hmem)
  | learn pages decorators patterns => exact .inl hmem
  | count => exact .inl hmem
  | submit h => exact .inl hmem
  | park h after closes outer r => exact .inl hmem
  | accept h => exact .inl (finished_mem_of_receive hmem)
  | @refuse d hid hpage h =>
    rw [shed_eq] at hmem ⊢
    have htalks := @talks_guarded (m.receive d).tryAdmit.2 d.outer
      ((m.receive d).tryAdmit.2.settings.fallback.overloaded d.context.request)
    have hheard : (m.receive d).tryAdmit.2.Heard d := List.mem_append_right _ List.mem_cons_self
    cases ended_finishWith (hheard.of_extends htalks.extends)
      (earns_of_extends (.shed hpage) htalks.extends) hmem with
    | inl hold => exact .inl (finished_mem_of_receive (htalks.finished_mem hold))
    | inr hnew =>
      obtain ⟨hended, rfl, -⟩ := hnew
      exact .inr ⟨hended, fun _ => ⟨h, Nat.le_of_eq hid.symm⟩⟩
  | answer hheard hne h =>
    cases ended_finishWith hheard h hmem with
    | inl hold => exact .inl hold
    | inr hnew =>
      obtain ⟨hended, -, rfl⟩ := hnew
      exact .inr ⟨hended, fun hs => absurd hs hne⟩
  | abandon d =>
    cases finished_mem_of_finish hmem with
    | inl hold => exact .inl hold
    | inr hnew =>
      have hd : summary.disposition = .abandoned := by
        rw [hnew.2.2]
        rfl
      exact .inr ⟨.abandoned hd, fun hs => absurd (hd.symm.trans hs) nofun⟩

end Finishes

end Machine
end PageDispatch
