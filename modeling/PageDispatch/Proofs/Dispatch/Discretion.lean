import PageDispatch.Proofs.Dispatch.Guidance
import PageDispatch.Proofs.Run.Mirror

/-!
This module contains the verification that failures do not leak: if details are not exposed, two
dispatches that differ in the failures they come to, in their kinds and texts, have one response.
-/

namespace PageDispatch

/-- The failure of a page that cannot be built. -/
def Lapse.ofBuild (cause : CauseChain) : Lapse := ⟨"<page>", none, .pageBuild cause, .empty⟩

/--
Whether two pages are built into chains whose runs mirror each other, or neither of them can be
built, as both hooks can be told or neither.
-/
inductive Page.Mirrors (e e' : Entry) (decorators decorators' : List Decorator)
    (page page' : Page) : Prop
  | builds {chain chain' : HandlerChain} (h : e.arrival.building decorators page = .ok chain)
    (h' : e'.arrival.building decorators' page' = .ok chain')
    (hchain : ∀ channel outer owner channel' outer' owner',
      Run.Mirrors e.engine.settings e'.engine.settings
        (.ofChain chain (.forRequest e.request) channel outer owner)
        (.ofChain chain' (.forRequest e'.request) channel' outer' owner'))
  | fails {cause cause' : CauseChain} (h : e.arrival.building decorators page = .error cause)
    (h' : e'.arrival.building decorators' page' = .error cause')
    (hhook : (e'.engine.settings.hook ((Lapse.ofBuild cause').report
        (e'.arrival.start (.empty page'.name)))).returns
      = (e.engine.settings.hook ((Lapse.ofBuild cause).report
        (e.arrival.start (.empty page.name)))).returns)

/-- Whether two dispatches are alike but for the failures that they come to. -/
structure Entry.Mirrors (found found' : Nat → List Decorator) (e e' : Entry) : Prop where
  settings : e.engine.settings.Mirrors e'.engine.settings
  request : e'.request = e.request
  admitted : e'.engine.pool.isFull = e.engine.pool.isFull
  count : e'.engine.pages.length = e.engine.pages.length
  pages : ∀ (k : Nat) page page', e.engine.pages[k]? = some page →
    e'.engine.pages[k]? = some page' → page.Mirrors e e' (found k) (found' k) page'

/-- Whether two dispatches have come equally far with their pages. -/
structure Dispatch.Mirrors (e e' : Entry) (d d' : Dispatch) : Prop where
  context : d.context = .forRequest e.request
  context' : d'.context = .forRequest e'.request
  pages : d.pages = e.engine.pages
  pages' : d'.pages = e'.engine.pages
  tried : d'.tried = d.tried

/-- Whether two dispatches are at runs that mirror each other, or have ended in the same way. -/
inductive Fate.Mirrors (e e' : Entry) : Fate → Fate → Prop
  | steps {run run' : Run} {d d' : Dispatch} (howner : run.owner = .dispatch d)
    (howner' : run'.owner = .dispatch d') (hd : d.Mirrors e e' d')
    (hrun : Run.Mirrors e.engine.settings e'.engine.settings run run') :
    Mirrors e e' (.flies (.queued (.step run))) (.flies (.queued (.step run')))
  | answers {d d' : Dispatch} {disposition disposition' : Disposition} (r : Response) :
    Mirrors e e' (.answers d disposition r) (.answers d' disposition' r)
  | abandons (d d' : Dispatch) : Mirrors e e' (.abandons d) (.abandons d')

section Settled

variable {settings : Settings} {found : Nat → List Decorator} {run : Run} {d : Dispatch}
  {p : Prospect}

theorem ruled_of (v : Ruling) : (run.ruled settings v).progress.Of run := by
  cases v with
  | decides unit position outcome own => apply (applying_sound _ _ _ _).progress
  | fails unit position failure own => apply (failing_sound _ _ _ _).progress
  | defers unit position own plan => apply Run.Resembles.refl
  | runsOut => trivial
  | escapes => trivial

theorem settled_of : ((run.stance settings).settled settings).Of run :=
  (ruled_of _).of_resembles Run.resembles_stance

theorem Fate.next_job {job : Job} (howner : job.run.owner = .dispatch d)
    (hp : p.fate = .flies (.queued job)) :
    (p.next settings (found p.fate.tried)).fate
      =
    ((job.forecast settings).progress.prospect settings (found d.tried) d).fate := by
  have htried := Fate.tried_eq (@Fate.dispatch?_flies d (.queued job) howner)
  unfold Prospect.next
  rw [hp, htried, Fate.next_queued howner]
  rfl

/-- A job that does not wait for a deferral settles at once, and else when the deferral does. -/
theorem exists_settled (howner : run.owner = .dispatch d)
    (hp : p.fate = .flies (.queued (.step run))) :
    ∃ steps, (p.guided settings found (steps + 1)).fate
      = (((run.stance settings).settled settings).prospect settings (found d.tried) d).fate := by
  have hfirst : (p.guided settings found 1).fate
      = (((run.stance settings).ruled settings).progress.prospect settings
        (found d.tried) d).fate := by
    rw [← stepping_eq]
    apply @Fate.next_job settings found d p (.step run) howner hp
  have howner' := (@Run.resembles_stance settings run).owner.trans howner
  generalize run.stance settings = t at hfirst howner'
  obtain ⟨es, run, ruling⟩ := t
  unfold Stance.ruled Stance.settled at *
  dsimp only at *
  cases ruling with
  | decides unit position outcome own => exact ⟨0, hfirst⟩
  | fails unit position failure own => exact ⟨0, hfirst⟩
  | runsOut => exact ⟨0, hfirst⟩
  | escapes => exact ⟨0, hfirst⟩
  | defers unit position own plan =>
    let s : Suspension := ⟨run, unit, position, own⟩
    have hresumes : ∀ steps,
        (p.guided settings found steps).fate = .flies (.queued (.resume s plan.resolved)) →
        (p.guided settings found (steps + 1)).fate
          = ((s.resuming settings plan.resolved).progress.prospect settings
            (found d.tried) d).fate := by
      intro steps hsteps
      apply @Fate.next_job settings found d _ (.resume s plan.resolved) howner' hsteps
    rw [resuming_eq] at hresumes
    have hflight : (p.guided settings found 1).fate = .flies (s.flight plan) := hfirst
    unfold Suspension.flight at hflight
    -- the run is resumed by the next job, or by the one after its wake
    cases hafter : plan.after with
    | none =>
      rw [hafter] at hflight
      exact ⟨1, hresumes 1 hflight⟩
    | some delay =>
      rw [hafter] at hflight
      refine ⟨2, hresumes 2 ?_⟩
      rw [Prospect.guided_succ]
      unfold Prospect.next
      rw [hflight]
      rfl

end Settled

section Mirrors

variable {e e' : Entry} {found found' : Nat → List Decorator} {d d' : Dispatch} {a a' : Answer}

theorem Dispatch.building_congr {decorators : List Decorator} {page : Page}
    (h : d'.context = d.context) : d'.building decorators page = d.building decorators page := by
  unfold building constructing
  rw [h]

theorem Dispatch.Mirrors.trying (h : d.Mirrors e e' d') (page page' : Page) :
    (d.trying page).Mirrors e e' (d'.trying page') where
  context := h.context
  context' := h.context'
  pages := h.pages
  pages' := h.pages'
  tried := congrArg (· + 1) h.tried

/-- The fallback is told of the failure, but says nothing of it. -/
theorem concluding_mirrors (he : e.Mirrors found found' e') (hd : d.Mirrors e e' d')
    (h : a.Mirrors a') :
    (d.concluding e.engine.settings a).Mirrors e e' (d'.concluding e'.engine.settings a') := by
  obtain ⟨retryAfter, hfallback, hfallback'⟩ := he.settings.fallback
  have hfatal := h.fatal
  unfold Dispatch.concluding
  rw [hfallback, hfallback', hd.context, hd.context', he.request]
  cases ha : a.fatal with
  | none =>
    cases ha' : a'.fatal with
    | none =>
      dsimp only
      rw [h.response]
      apply Fate.Mirrors.answers
    | some fatal =>
      rw [ha, ha'] at hfatal
      cases hfatal
  | some fatal =>
    cases ha' : a'.fatal with
    | none =>
      rw [ha, ha'] at hfatal
      cases hfatal
    | some fatal' => apply Fate.Mirrors.answers

theorem trialing_mirrors (he : e.Mirrors found found' e') (hd : d.Mirrors e e' d') {k : Nat}
    {page page' : Page} (h : page.Mirrors e e' (found k) (found' k) page') :
    (d.trialing e.engine.settings (found k) page).fate.Mirrors e e'
      (d'.trialing e'.engine.settings (found' k) page').fate := by
  have hbuilding : ∀ page,
      d.building (found k) page = e.arrival.building (found k) page := by
    intro page
    apply Dispatch.building_congr hd.context
  have hbuilding' : ∀ page,
      d'.building (found' k) page = e'.arrival.building (found' k) page := by
    intro page
    apply Dispatch.building_congr hd.context'
  unfold Dispatch.trialing
  rw [hbuilding, hbuilding']
  cases h with
  | builds h h' hchain =>
    rw [h, h']
    apply Fate.Mirrors.steps rfl rfl hd
    unfold Dispatch.start
    rw [hd.context, hd.context']
    apply hchain
  | @fails cause cause' h h' hhook =>
    rw [h, h']
    apply concluding_mirrors he hd
    apply @answer_mirrors _ _ _ _ (.ofBuild cause) (.ofBuild cause') he.settings
    . rfl
    . rfl
    . unfold Lapse.report Run.report Dispatch.start Run.ofChain at hhook ⊢
      rw [hd.context, hd.context']
      exact hhook

theorem advancing_mirrors (he : e.Mirrors found found' e') (hd : d.Mirrors e e' d') :
    (d.advancing e.engine.settings (found d.tried)).fate.Mirrors e e'
      (d'.advancing e'.engine.settings (found' d'.tried)).fate := by
  unfold Dispatch.advancing
  rw [hd.pages, hd.pages', hd.tried]
  cases hpage : e.engine.pages[d.tried]? with
  | none =>
    have hpage' : e'.engine.pages[d.tried]? = none := by
      rw [List.getElem?_eq_none_iff] at hpage ⊢
      rw [he.count]
      exact hpage
    obtain ⟨retryAfter, hfallback, hfallback'⟩ := he.settings.fallback
    rw [hpage', hfallback, hfallback', hd.context, hd.context', he.request]
    apply Fate.Mirrors.answers
  | some page =>
    have hlt := (List.getElem?_eq_some_iff.mp hpage).1
    rw [← he.count] at hlt
    have hpage' := List.getElem?_eq_getElem hlt
    rw [hpage']
    apply trialing_mirrors he
    . apply hd.trying
    . apply he.pages d.tried _ _ hpage hpage'

theorem outset_mirrors (he : e.Mirrors found found' e') :
    (e.outset (found 0)).fate.Mirrors e e' (e'.outset (found' 0)).fate := by
  unfold Entry.outset Dispatch.entering
  rw [he.admitted]
  split
  . have harrival : e.arrival.Mirrors e e' e'.arrival := ⟨rfl, rfl, rfl, rfl, rfl⟩
    apply advancing_mirrors he harrival
  . obtain ⟨retryAfter, hfallback, hfallback'⟩ := he.settings.fallback
    have hrequest : e'.arrival.context.request = e.arrival.context.request := he.request
    unfold Dispatch.shedding
    rw [hfallback, hfallback', hrequest]
    apply Fate.Mirrors.answers

variable {R : Run → Run → Prop} {run run' : Run} {progress progress' : Progress} {p p' : Prospect}

theorem prospect_mirrors (he : e.Mirrors found found' e') (hd : d.Mirrors e e' d')
    (hR : Mirroring e.engine.settings e'.engine.settings R) (howner : run.owner = .dispatch d)
    (howner' : run'.owner = .dispatch d') (hof : progress.Of run) (hof' : progress'.Of run')
    (h : progress.Mirrors R progress') :
    (progress.prospect e.engine.settings (found d.tried) d).fate.Mirrors e e'
      (progress'.prospect e'.engine.settings (found' d'.tried) d').fate := by
  cases h with
  | continues h =>
    apply Fate.Mirrors.steps (hof.owner.trans howner) (hof'.owner.trans howner') hd
    exact ⟨R, hR, h⟩
  | answers h => apply concluding_mirrors he hd h
  | rejects evaluated evaluated' rejecter rejecter' => apply advancing_mirrors he hd
  | escapes => apply Fate.Mirrors.abandons

/-- Runs that mirror each other settle alike, though one of them may take longer. -/
theorem steps_mirrors (he : e.Mirrors found found' e') (hd : d.Mirrors e e' d')
    (howner : run.owner = .dispatch d) (howner' : run'.owner = .dispatch d')
    (hrun : Run.Mirrors e.engine.settings e'.engine.settings run run')
    (hp : p.fate = .flies (.queued (.step run))) (hp' : p'.fate = .flies (.queued (.step run'))) :
    ∃ steps steps', (p.guided e.engine.settings found (steps + 1)).fate.Mirrors e e'
      (p'.guided e'.engine.settings found' (steps' + 1)).fate := by
  obtain ⟨R, hR, hrun⟩ := hrun
  obtain ⟨steps, hsteps⟩ := @exists_settled e.engine.settings found _ _ _ howner hp
  obtain ⟨steps', hsteps'⟩ := @exists_settled e'.engine.settings found' _ _ _ howner' hp'
  refine ⟨steps, steps', ?_⟩
  rw [hsteps, hsteps']
  have hresponse : (run'.stance e'.engine.settings).run.response
      = (run.stance e.engine.settings).run.response := by
    rw [Run.resembles_stance.response, Run.resembles_stance.response]
    apply hR.response hrun
  apply prospect_mirrors he hd hR howner howner' settled_of settled_of
  apply (hR.stance hrun).settled he.settings hresponse

/-- Courses that mirror each other end in one response, though at different times. -/
theorem Fate.Mirrors.exists_answers (he : e.Mirrors found found' e')
    (h : p.fate.Mirrors e e' p'.fate) {steps : Nat} {disposition : Disposition} {r : Response}
    (hr : (p.guided e.engine.settings found steps).fate = .answers d disposition r) :
    ∃ steps' d' disposition',
      (p'.guided e'.engine.settings found' steps').fate = .answers d' disposition' r := by
  -- the steps of the first course decrease from one settled job to the next
  induction steps generalizing p p' with
  | zero =>
    change p.fate = _ at hr
    rw [hr] at h
    generalize hp' : p'.fate = fate' at h
    cases h with
    | answers => exact ⟨0, _, _, hp'⟩
  | succ steps ih =>
    generalize hp : p.fate = fate at h
    generalize hp' : p'.fate = fate' at h
    cases h with
    | answers r =>
      rw [Prospect.guided_over (by rw [hp]; rfl), hp] at hr
      cases hr
      exact ⟨0, _, _, hp'⟩
    | abandons d d' =>
      rw [Prospect.guided_over (by rw [hp]; rfl), hp] at hr
      cases hr
    | steps howner howner' hd hrun =>
      obtain ⟨j, j', hj⟩ := steps_mirrors he hd howner howner' hrun hp hp'
      have hlater : ((p.guided e.engine.settings found (j + 1)).guided e.engine.settings found
          steps).fate = .answers d disposition r := by
        rw [← Prospect.guided_add]
        rw [show j + 1 + steps = steps + 1 + j by omega]
        rw [Prospect.guided_add]
        rw [Prospect.guided_over (by rw [hr]; rfl)]
        exact hr
      obtain ⟨steps', d', disposition', hsteps'⟩ := ih hj hlater
      rw [← Prospect.guided_add] at hsteps'
      exact ⟨_, d', disposition', hsteps'⟩

section Responses

variable {n n' : Machine} {x x' : ChannelId × Response}

/-- Where one of them has sent a response, this is what the course of the other one ends in. -/
theorem Entry.Mirrors.exists_answers (he : e.Mirrors found found' e') (h : e.Finds found n)
    (hx : x ∈ n.responses e.id) :
    ∃ steps d disposition,
      ((e'.outset (found' 0)).guided e'.engine.settings found' steps).fate
        = .answers d disposition x.2 := by
  obtain ⟨steps, d, disposition, hsteps⟩ := h.exists_answers hx
  apply (outset_mirrors he).exists_answers he hsteps

theorem Entry.Mirrors.response_eq (he : e.Mirrors found found' e') (h : e.Finds found n)
    (h' : e'.Finds found' n') (hx : x ∈ n.responses e.id) (hx' : x' ∈ n'.responses e'.id) :
    x'.2 = x.2 := by
  obtain ⟨steps, d, disposition, hsteps⟩ := he.exists_answers h hx
  obtain ⟨steps', d', disposition', hsteps'⟩ := h'.exists_answers hx'
  have hsame := Prospect.guided_eq_of_isOver (by rw [hsteps]; rfl) (by rw [hsteps']; rfl)
  rw [hsame, hsteps] at hsteps'
  injection hsteps' with _ _ heq
  exact heq.symm

theorem Entry.Mirrors.exists_response (he : e.Mirrors found found' e') (h : e.Finds found n)
    (h' : e'.Finds found' n') (hx : x ∈ n.responses e.id) (hfinished : n'.Finished e'.id)
    (hopen : .closed e'.channel ∉ n'.journal) : ∃ x' ∈ n'.responses e'.id, x'.2 = x.2 := by
  obtain ⟨steps, d, disposition, hsteps⟩ := he.exists_answers h hx
  apply h'.exists_mem_responses hfinished hopen hsteps

end Responses

/-- Chains that mirror each other are run alike by engines that are given the same. -/
theorem Page.mirrors_of_chains {decorators decorators' : List Decorator} {page page' : Page}
    {chain chain' : HandlerChain} (hs : e.engine.settings.Conceals e'.engine.settings)
    (hrequest : e'.request = e.request) (h : e.arrival.building decorators page = .ok chain)
    (h' : e'.arrival.building decorators' page' = .ok chain')
    (hchain : chain.Mirrors e.engine.settings e'.engine.settings chain') :
    page.Mirrors e e' decorators decorators' page' := by
  apply Page.Mirrors.builds h h'
  intro channel outer owner channel' outer' owner'
  rw [hrequest]
  apply Run.Abreast.mirrors hs
  apply hchain.abreast

end Mirrors

/--
Failures do not leak. If details are not exposed and the fallback is the default one, dispatches
that mirror each other have one response; they may differ in the kinds and texts of the failures
that they come to, but neither in what was written until then nor in whether the hook panics. And
what one of them has sent is sent by the other one as well, unless its channel is closed too early.
-/
theorem failures_do_not_leak :
    (∀ (e e' : Entry) (found found' : Nat → List Decorator) (n n' : Machine),
      e.Mirrors found found' e' → e.Finds found n → e'.Finds found' n' →
        ∀ x ∈ n.responses e.id, (∀ x' ∈ n'.responses e'.id, x'.2 = x.2) ∧
          (n'.Finished e'.id → .closed e'.channel ∉ n'.journal →
            ∃ x' ∈ n'.responses e'.id, x'.2 = x.2)) ∧
    (∀ (settings : Settings) (m : Machine) (i : Nat), Machine.Stirred settings m →
      i < m.dispatches → ∃ (e : Entry) (found : Nat → List Decorator),
        e.id = i ∧ e.Finds found m) ∧
    (∀ (settings settings' : Settings) (run run' : Run), run'.response = run.response →
      (run.stance settings).Mirrors settings settings' (Run.Mirrors settings settings')
        (run'.stance settings') → Run.Mirrors settings settings' run run') ∧
    (∀ (e e' : Entry) (decorators decorators' : List Decorator) (page page' : Page)
      (chain chain' : HandlerChain), e.engine.settings.Conceals e'.engine.settings →
        e'.request = e.request → e.arrival.building decorators page = .ok chain →
        e'.arrival.building decorators' page' = .ok chain' →
        chain.Mirrors e.engine.settings e'.engine.settings chain' →
          page.Mirrors e e' decorators decorators' page') ∧
    (∀ (settings settings' : Settings) (name : String) (before after : List ChainElement)
      (u u' : HandlerUnit), u'.name = u.name →
        (∀ view, ∃ f f', (u.evaluate view).decision.1 = .failure f ∧
          (u'.evaluate view).decision.1 = .failure f' ∧
          (u'.evaluate view).decision.2 = (u.evaluate view).decision.2 ∧
          settings.TellsAlike settings' f f') →
        HandlerChain.Mirrors settings settings' ⟨name, before ++ .unit u :: after⟩
          ⟨name, before ++ .unit u' :: after⟩) := by
  refine ⟨?_, ?_, ?_, ?_, ?_⟩
  . intro e e' found found' n n' he h h' x hx
    constructor
    . intro x' hx'
      apply he.response_eq h h' hx hx'
    . intro hfinished hopen
      apply he.exists_response h h' hx hfinished hopen
  . intro settings m i h hi
    apply h.exists_finds hi
  . intro settings settings' run run' hresponse h
    apply Run.mirrors_of_stance hresponse h
  . intro e e' decorators decorators' page page' chain chain' hs hrequest h h' hchain
    apply Page.mirrors_of_chains hs hrequest h h' hchain
  . intro settings settings' name before after u u' hname h
    apply HandlerChain.mirrors_replace
    apply HandlerUnit.mirrors_of_fails hname h

/-- A unit that writes that the connection is to be closed, but later, and comes to an end. -/
def endingUnit (ending : UnitEnding) : HandlerUnit where
  name := .ok "End"
  evaluate _ :=
    ⟨[], (Accumulator.insertRaw .empty .connection Response.close).setDelay (.ofSeconds 1), [],
      ending⟩

def lockedChain (ending : UnitEnding) : HandlerChain where
  name := "Lock"
  elements := [.unit ⟨.ok "Lock", fun _ => .decide (.consumed [] true)⟩, .unit (endingUnit ending)]

def lockedPage (ending : UnitEnding) : Page := ⟨"Lock", fun _ => .pure (.ok (lockedChain ending))⟩

def lockedEntry (ending : UnitEnding) : Entry :=
  ⟨Machine.single .plain [lockedPage ending], .new .zero .get "/", 0, 0, false⟩

def panicking : UnitEnding := .panicked (.text "secret")

def failingLater : UnitEnding := .deferred ⟨some 5, false, .error (.failed (.of "secret"))⟩

theorem finds_lockedEntry (ending : UnitEnding) :
    (lockedEntry ending).Finds (fun _ => []) (lockedEntry ending).entered := by
  have hsane := (Machine.reachable_single .plain [lockedPage ending]).sane.1
  have hstep : (lockedEntry ending).engine.Step (lockedEntry ending).entered :=
    .dispatch _ Nat.zero_lt_one
  exact .enters hsane Nat.zero_lt_one (hstep.sane hsane).1 .refl rfl rfl

theorem stance_mirrors_lockedChain (context : Context) (channel outer : ChannelId)
    (owner : Owner) (channel' outer' : ChannelId) (owner' : Owner) :
    Stance.Mirrors .plain .plain (Run.Mirrors .plain .plain)
      ((Run.ofChain (lockedChain (.decided .rejected)) context channel outer owner).stance .plain)
      ((Run.ofChain (lockedChain failingLater) context channel' outer' owner').stance .plain) := by
  apply Stance.Mirrors.agrees
  . rfl
  . rfl
  . rfl
  . intro unit position objects locked own hresolved
    cases hresolved
    apply Run.mirrors_of_stance
    . rfl
    . apply Stance.Mirrors.lapses
      . rfl
      . rfl
      . rfl
      . rfl

theorem mirrors_lockedEntry :
    Entry.Mirrors (fun _ => []) (fun _ => []) (lockedEntry (.decided .rejected))
      (lockedEntry failingLater) where
  settings := (Settings.conceals_self rfl rfl).toMirrors
  request := rfl
  admitted := rfl
  count := rfl
  pages k page page' hpage hpage' := by
    cases k with
    | zero =>
      cases hpage
      cases hpage'
      apply Page.Mirrors.builds
      . rfl
      . rfl
      . intro channel outer owner channel' outer' owner'
        apply Run.mirrors_of_stance
        . rfl
        . apply stance_mirrors_lockedChain
    | succ k => cases hpage

/-- Behind a lock, a rejection is answered like an error that comes with a deferral. -/
theorem rejection_answered_like_error :
    (∃ x, ((lockedEntry (.decided .rejected)).entered.settle 2).responses 0 = [x] ∧
      x.2.status = .internalServerError ∧ x.2.closes = true ∧
      (∃ x' ∈ ((lockedEntry failingLater).entered.settle 4).responses 0, x'.2 = x.2) ∧
      ∀ x' ∈ ((lockedEntry failingLater).entered.settle 5).responses 0, x'.2 = x.2) ∧
    (∃ (e : Entry) (found : Nat → List Decorator),
      e.id = 0 ∧ e.Finds found (lockedEntry panicking).entered) ∧
    Run.Mirrors .plain .plain
      (.ofChain (lockedChain (.decided .rejected)) (.forRequest (.new .zero .get "/")) 0 0 .caller)
      (.ofChain (lockedChain failingLater) (.forRequest (.new .zero .get "/")) 0 0 .caller) ∧
    (lockedPage panicking).Mirrors (lockedEntry panicking) (lockedEntry failingLater) [] []
      (lockedPage failingLater) := by
  obtain ⟨hresponse, hfinds, hstance, hpage, hchain⟩ := failures_do_not_leak
  have h := (finds_lockedEntry (.decided .rejected)).reaches (Machine.reaches_settle _ 2) rfl
  refine ⟨⟨_, rfl, rfl, rfl, ?_, ?_⟩, ?_, ?_, ?_⟩
  . have h' := (finds_lockedEntry failingLater).reaches (Machine.reaches_settle _ 4) rfl
    apply (hresponse _ _ _ _ _ _ mirrors_lockedEntry h h' _ (List.mem_singleton_self _)).2
    . exact ⟨_, _, List.mem_of_getElem? (i := 5) rfl⟩
    . intro hclosed
      have hall : ((lockedEntry failingLater).entered.settle 4).journal.all
          (fun e => e.dispatch? == some 0) = true := rfl
      cases List.all_eq_true.mp hall _ hclosed
  . have h' := (finds_lockedEntry failingLater).reaches (Machine.reaches_settle _ 5) rfl
    exact (hresponse _ _ _ _ _ _ mirrors_lockedEntry h h' _ (List.mem_singleton_self _)).1
  . apply hfinds .plain _ 0
    . apply (Machine.reachable_single .plain [lockedPage panicking]).stirred.reaches
      exact .single (.dispatch _ Nat.zero_lt_one)
    . exact Nat.zero_lt_one
  . apply hstance
    . rfl
    . apply stance_mirrors_lockedChain
  . apply hpage
    . apply Settings.conceals_self rfl rfl
    . rfl
    . rfl
    . rfl
    . apply hchain .plain .plain "Lock" [_] [] (endingUnit panicking) (endingUnit failingLater) rfl
      intro view
      exact ⟨_, _, rfl, rfl, rfl, fun _ => rfl⟩

end PageDispatch
