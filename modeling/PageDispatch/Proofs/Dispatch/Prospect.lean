import PageDispatch.Proofs.Run.Forecast

/-!
This module contains what a job makes of its dispatch: it goes on in another flight, or ends in a
response, or is given up. Like a forecast, it is a function of the settings and decorators as long
as the channel stays open.
-/

namespace PageDispatch

inductive Fate where
  | flies (f : Flight)
  | answers (d : Dispatch) (disposition : Disposition) (r : Response)
  | abandons (d : Dispatch)

structure Prospect where
  events : List Event
  fate : Fate

namespace Prospect

def after (p : Prospect) (es : List Event) : Prospect := { p with events := es ++ p.events }

theorem after_after (p : Prospect) (es es' : List Event) :
    (p.after es').after es = p.after (es ++ es') := by
  unfold after
  rw [List.append_assoc]

end Prospect

namespace Call

def orMinimal (c : Call Response) : Response :=
  match c.result with
  | .ok r => r
  | .error _ => .minimalError

end Call

namespace Response

def isDelayed (r : Response) : Bool := (r.delay.filter (0 < ·.milliseconds)).isSome

end Response

namespace Dispatch

variable (settings : Settings) (decorators : List Decorator)

def concluding (d : Dispatch) (a : Answer) : Fate :=
  let disposition := if a.record.kind = .failure then .failed else .answered
  match a.fatal with
  | none => .answers d disposition a.response
  | some fatal =>
    .answers d disposition
      (settings.fallback.onError d.context.request fatal).orMinimal.closing

def decorating (context : Context) :
    List Decorator → HandlerChain → Except PanicPayload (Except CauseChain HandlerChain)
  | [], chain => .ok (.ok chain)
  | decorator :: rest, chain =>
    match (decorator.decorate chain.view context).result with
    | .ok (.ok edits) => decorating context rest (edits.foldl .edit chain)
    | .ok (.error e) => .ok (.error e)
    | .error payload => .error payload

def constructing (d : Dispatch) (page : Page) :
    Except PanicPayload (Except CauseChain HandlerChain) :=
  match (page.build d.context).result with
  | .ok (.ok chain) => decorating d.context decorators chain
  | .ok (.error e) => .ok (.error e)
  | .error payload => .error payload

def building (d : Dispatch) (page : Page) : Except CauseChain HandlerChain :=
  match d.constructing decorators page with
  | .ok result => result
  | .error payload =>
    .error (.of ("page " ++ page.name ++ " panicked while building: " ++ payload.message))

def broken (d : Dispatch) (page : String) (e : CauseChain) : Prospect :=
  let run := d.start (.empty page)
  ⟨[.reporting (some d.id) (run.report "<page>" none (.pageBuild e))],
    d.concluding settings (run.failed settings "<page>" none (.pageBuild e) .empty)⟩

/-- Here the dispatch counts the page already. -/
def trialing (d : Dispatch) (page : Page) : Prospect :=
  match d.building decorators page with
  | .ok chain => ⟨[.building d.id page.name], .flies (.queued (.step (d.start chain)))⟩
  | .error e => (d.broken settings page.name e).after [.building d.id page.name]

def advancing (d : Dispatch) : Prospect :=
  match d.pages[d.tried]? with
  | none =>
    ⟨[], .answers { d with current := none } .notFound
      (settings.fallback.notFound d.context.request).orMinimal⟩
  | some page => (d.trying page).trialing settings decorators page

def shedding (d : Dispatch) : Prospect :=
  ⟨[], .answers d .shed (settings.fallback.overloaded d.context.request).orMinimal⟩

def entering (d : Dispatch) (admitted : Bool) : Prospect :=
  if admitted then d.advancing settings decorators else d.shedding settings

def completing (d : Dispatch) : ChainResult → Prospect
  | .answered a => ⟨[], d.concluding settings a⟩
  | .rejected _ _ => (d.advancing settings decorators).after [.rejected d.id d.tried]
  | .abandoned _ => ⟨[], .abandons d⟩

end Dispatch

namespace Suspension

def flight (s : Suspension) (plan : DeferralPlan) : Flight :=
  match plan.after with
  | some _ => .parked s plan.closes s.run.outer plan.resolved
  | none => .queued (.resume s plan.resolved)

theorem flight_run (s : Suspension) (plan : DeferralPlan) : (s.flight plan).run = s.run := by
  unfold flight
  split <;> rfl

end Suspension

namespace Progress

def prospect (settings : Settings) (decorators : List Decorator) (d : Dispatch) :
    Progress → Prospect
  | .continues run => ⟨[], .flies (.queued (.step run))⟩
  | .suspended s plan => ⟨[], .flies (s.flight plan)⟩
  | .ended result => d.completing settings decorators result
  | .escaped => ⟨[.escaped (some d.id)], .abandons d⟩

end Progress

namespace Job

def prospect (settings : Settings) (decorators : List Decorator) (d : Dispatch) (job : Job) :
    Prospect :=
  ((job.forecast settings).progress.prospect settings decorators d).after
    (job.forecast settings).events

end Job

/-- What the way of a response leaves in a strand; `closed` says that its channel is closed. -/
inductive Strand.Delivers (d : Dispatch) (r : Response) (closed : Prop) (s : Strand) : Strand → Prop
  | later (hr : r.isDelayed = true) : Delivers d r closed s (s.owe d.channel r)
  | sent (hr : r.isDelayed = false) :
    Delivers d r closed s (s.note [.sending d.id d.channel r])
  | withheld (hr : r.isDelayed = false) (hc : closed) :
    Delivers d r closed s (s.note [.withheld d.id d.channel r])

/-- What a fate leaves in the strand of its dispatch. -/
inductive Fate.Leaves (closed : Prop) (s : Strand) : Fate → Strand → Prop
  | flies (f : Flight) : Leaves closed s (.flies f) (s.fly f)
  | answers {d : Dispatch} {disposition : Disposition} {r : Response} {s' : Strand} (now : Nat)
    (h : s.Delivers d r closed s') :
    Leaves closed s (.answers d disposition r)
      (s'.note [.finished d.id d.nested (d.summary now disposition (some r.status))])
  | abandons (d : Dispatch) (now : Nat) :
    Leaves closed s (.abandons d)
      (s.note [.finished d.id d.nested (d.summary now .abandoned none)])

namespace Machine

/--
Whether a machine did for a dispatch what was foretold, or stopped since the channel is closed.
-/
def Meets (m m' : Machine) (d : Dispatch) (told : Prospect) : Prop :=
  ∃ es fate,
    fate.Leaves (m'.isOpen d.channel = false) ((m.strand d.id).note es) (m'.strand d.id) ∧
    ((es = told.events ∧ fate = told.fate) ∨
      (es <+: told.events ∧ m'.isOpen d.channel = false ∧
        ∃ tried current, fate = .abandons { d with tried, current }))

variable {m m' m'' : Machine} {d : Dispatch} {told : Prospect}

theorem Meets.after {es : List Event} (h : m'.Meets m'' d told)
    (hs : m'.strand d.id = (m.strand d.id).note es) : m.Meets m'' d (told.after es) := by
  obtain ⟨es', fate, hleaves, hcase⟩ := h
  rw [hs, Strand.note_note] at hleaves
  refine ⟨es ++ es', fate, hleaves, ?_⟩
  cases hcase with
  | inl hkept => exact .inl ⟨by rw [hkept.1]; rfl, hkept.2⟩
  | inr hclosed => exact .inr ⟨(List.prefix_append_right_inj es).mpr hclosed.1, hclosed.2⟩

theorem Meets.of_strand_eq (h : m'.Meets m'' d told) (hs : m'.strand d.id = m.strand d.id) :
    m.Meets m'' d told := by
  unfold Meets at h
  rw [hs] at h
  exact h

theorem strand_guarded {outer : ChannelId} (c : Call Response) (i : Nat) :
    (m.guarded outer c).1.strand i = m.strand i :=
  Acts.strand_eq (@acts_guarded m (fun _ => False) outer c) id

theorem guarded_snd {outer : ChannelId} (c : Call Response) :
    (m.guarded outer c).2 = c.orMinimal := by
  unfold guarded Call.orMinimal call
  cases c.result with
  | ok r => rfl
  | error payload => rfl

theorem sendNow_of_closed {i : Nat} {channel outer : ChannelId} {r : Response}
    (h : m.isOpen channel = false) :
    m.sendNow i channel outer r = m.log (.withheld i channel r) := by
  unfold sendNow
  cases hw : m.wires[channel]? with
  | none => rfl
  | some wire =>
    simp only [isOpen, hw] at h
    simp [h]

theorem acts_sendNow_of_open {i : Nat} {channel outer : ChannelId} {r : Response}
    (h : m.isOpen channel = true) :
    Acts (fun _ => False) (m.log (.sending i channel r)) (m.sendNow i channel outer r) := by
  unfold sendNow
  cases hw : m.wires[channel]? with
  | none => simp [isOpen, hw] at h
  | some wire =>
    simp only [isOpen, hw] at h
    have hsend := @acts_transmit (m.log (.sending i channel r)) (fun _ => False) outer channel wire
      hw r
    dsimp only
    rw [if_pos h]
    split
    . exact hsend.trans (acts_close channel)
    . exact hsend

theorem strand_sendNow_of_open {i : Nat} {channel outer : ChannelId} {r : Response}
    (h : m.isOpen channel = true) :
    (m.sendNow i channel outer r).strand i = (m.strand i).note [.sending i channel r] :=
  ((acts_sendNow_of_open h).strand_eq id).trans (strand_log_of_eq rfl)

theorem delivers_deliver (r : Response) :
    (m.strand d.id).Delivers d r ((m.deliver d r).isOpen d.channel = false)
      ((m.deliver d r).strand d.id) := by
  unfold deliver
  cases hdelay : r.delay.filter (0 < ·.milliseconds) with
  | none =>
    have hr : r.isDelayed = false := by simp only [Response.isDelayed, hdelay, Option.isSome_none]
    dsimp only
    cases hopen : m.isOpen d.channel with
    | true =>
      rw [strand_sendNow_of_open hopen]
      exact .sent hr
    | false =>
      rw [sendNow_of_closed hopen, strand_log_of_eq rfl]
      exact .withheld hr hopen
  | some delay =>
    have hr : r.isDelayed = true := by simp only [Response.isDelayed, hdelay, Option.isSome_some]
    dsimp only
    rw [strand_schedule_deliver]
    exact .later hr

theorem strand_finish (disposition : Disposition) (status : Option Status) :
    (m.finish d disposition status).strand d.id
      =
    (m.strand d.id).note
      [.finished d.id d.nested (d.summary m.clock disposition status)] :=
  strand_log_of_eq rfl

theorem meets_finish (h : m.isOpen d.channel = false) :
    m.Meets (m.finish d .abandoned none) d told := by
  refine ⟨[], .abandons d, ?_, .inr ⟨List.nil_prefix, h, d.tried, d.current, rfl⟩⟩
  rw [Strand.note_nil, strand_finish]
  exact .abandons d m.clock

theorem meets_finishWith (disposition : Disposition) (r : Response) :
    m.Meets (m.finishWith d disposition r) d ⟨[], .answers d disposition r⟩ := by
  refine ⟨[], .answers d disposition r, ?_, .inl ⟨rfl, rfl⟩⟩
  rw [Strand.note_nil]
  unfold finishWith
  rw [strand_finish]
  exact .answers _ (delivers_deliver r)

theorem meets_notFound :
    m.Meets (m.notFound d) d
      ⟨[], .answers { d with current := none } .notFound
        (m.settings.fallback.notFound d.context.request).orMinimal⟩ := by
  unfold notFound
  split
  . dsimp only
    rw [guarded_snd]
    exact Meets.of_strand_eq (@meets_finishWith _ { d with current := none } _ _)
      (strand_guarded _ _)
  . next h => exact meets_finish (Bool.eq_false_iff.mpr h)

theorem meets_conclude (a : Answer) :
    m.Meets (m.conclude d a) d ⟨[], d.concluding m.settings a⟩ := by
  unfold conclude Dispatch.concluding
  cases a.fatal with
  | none => exact meets_finishWith _ _
  | some fatal =>
    dsimp only
    rw [guarded_snd]
    exact Meets.of_strand_eq (meets_finishWith _ _) (strand_guarded _ _)

theorem decorate_snd {outer : ChannelId} (context : Context) (decorators : List Decorator)
    (chain : HandlerChain) :
    (m.decorate outer context decorators chain).2
      =
    Dispatch.decorating context decorators chain := by
  induction decorators generalizing m chain with
  | nil => rfl
  | cons decorator rest ih =>
    unfold decorate Dispatch.decorating call
    cases (decorator.decorate chain.view context).result with
    | ok result =>
      cases result with
      | ok edits => apply ih
      | error e => rfl
    | error payload => rfl

theorem buildChain_snd (page : Page) :
    (m.buildChain d page).2 = d.building m.decorators page := by
  have hconstruct : (m.construct d page).2 = d.constructing m.decorators page := by
    unfold construct Dispatch.constructing call
    cases (page.build d.context).result with
    | ok result =>
      cases result with
      | ok chain => apply decorate_snd
      | error e => rfl
    | error payload => rfl
  unfold buildChain Dispatch.building
  rw [← hconstruct]
  generalize m.construct d page = done
  obtain ⟨built, result⟩ := done
  cases result with
  | ok result => rfl
  | error payload => rfl

theorem fail_of_open {run : Run} {unit : String} {position : Option Nat} {failure : UnitFailure}
    {own : Accumulator} (h : m.isOpen run.channel = true) :
    m.fail run unit position failure own
      =
    (((m.log (.reporting run.owner.id? (run.report unit position failure))).call run.outer
        (m.settings.hook (run.report unit position failure))).1,
      some (run.failed m.settings unit position failure own)) := by
  unfold fail
  rw [if_pos h]
  rfl

theorem fail_of_closed {run : Run} {unit : String} {position : Option Nat} {failure : UnitFailure}
    {own : Accumulator} (h : m.isOpen run.channel = false) :
    m.fail run unit position failure own = (m, none) := by
  unfold fail
  rw [h]
  rfl

theorem meets_breakOff (page : String) (e : CauseChain) :
    m.Meets (m.breakOff d page e) d (d.broken m.settings page e) := by
  have hfail : m.failPage page d.context d.channel d.outer (.dispatch d) e
      = m.fail (d.start (.empty page)) "<page>" none (.pageBuild e) .empty := rfl
  unfold breakOff
  rw [hfail]
  cases hopen : m.isOpen d.channel with
  | false =>
    rw [fail_of_closed hopen]
    exact meets_finish hopen
  | true =>
    rw [fail_of_open hopen]
    unfold Dispatch.broken
    dsimp only
    generalize hreport : (d.start (.empty page)).report "<page>" none (.pageBuild e) = report
    have hcall := @acts_call (m.log (.reporting (some d.id) report)) (fun _ => False) d.outer _
      (m.settings.hook report)
    have hstrand := (hcall.strand_eq (i := d.id) id).trans (strand_log_of_eq rfl)
    have hconclude := @meets_conclude (call (m.log (.reporting (some d.id) report)) d.outer
      (m.settings.hook report)).1 d
      ((d.start (.empty page)).failed m.settings "<page>" none (.pageBuild e) .empty)
    rw [hcall.grows.settings] at hconclude
    exact hconclude.after hstrand

theorem meets_tryPage (page : Page) :
    m.Meets (m.tryPage d page) d (d.trialing m.settings m.decorators page) := by
  unfold tryPage
  dsimp only
  -- counting the page and building its chain leave the strand alone, but for one event
  generalize hm : { m with metrics := _ } = next
  have hnext : m.SameWork next := by
    rw [← hm]
    exact ⟨rfl, List.prefix_refl _, id, rfl, rfl, rfl, rfl, rfl⟩
  have hdecorators : (next.log (.building d.id page.name)).decorators = m.decorators := by
    rw [← hm]
    rfl
  have hbuilt := @buildChain_snd (next.log (.building d.id page.name)) d page
  rw [hdecorators] at hbuilt
  have hacts := @acts_buildChain (next.log (.building d.id page.name)) (fun _ => False) d page
  have hlog : (next.log (.building d.id page.name)).strand d.id
      = (m.strand d.id).note [.building d.id page.name] := by
    rw [strand_log_of_eq rfl, hnext.strand_eq]
  have hsettings : (buildChain (next.log (.building d.id page.name)) d page).1.settings
      = m.settings := hacts.grows.settings.trans hnext.settings
  have hstrand := (hacts.strand_eq (i := d.id) id).trans hlog
  unfold Dispatch.trialing
  rw [← hbuilt]
  generalize buildChain _ d page = done at hstrand hsettings
  obtain ⟨built, result⟩ := done
  dsimp only at hstrand hsettings ⊢
  cases result with
  | ok chain =>
    refine ⟨_, _, ?_, .inl ⟨rfl, rfl⟩⟩
    rw [strand_submit_of_eq rfl, hstrand]
    exact .flies _
  | error e =>
    have hbroken := @meets_breakOff built d page.name e
    rw [hsettings] at hbroken
    exact hbroken.after hstrand

theorem meets_advance : m.Meets (m.advance d) d (d.advancing m.settings m.decorators) := by
  unfold advance Dispatch.advancing
  cases d.pages[d.tried]? with
  | none => exact meets_notFound
  | some page => exact @meets_tryPage m (d.trying page) page

theorem meets_complete (result : ChainResult) :
    m.Meets (m.complete (.dispatch d) result) d
      (d.completing m.settings m.decorators result) := by
  unfold complete Dispatch.completing
  cases result with
  | answered a => exact meets_conclude a
  | rejected evaluated rejecter =>
    exact Meets.after (meets_advance (m := m.log (.rejected d.id d.tried))) (strand_log_of_eq rfl)
  | abandoned evaluated =>
    refine ⟨[], .abandons d, ?_, .inl ⟨rfl, rfl⟩⟩
    rw [Strand.note_nil]
    dsimp only
    rw [strand_finish]
    exact .abandons d m.clock

theorem meets_shed : m.Meets (m.shed d) d (d.shedding m.settings) := by
  unfold shed
  dsimp only
  rw [guarded_snd]
  exact Meets.of_strand_eq (meets_finishWith _ _) (strand_guarded _ _)

theorem meets_dispatch {request : Request} {channel outer : ChannelId} {nested : Bool}
    (hd : m.newDispatch request channel outer nested = d) :
    ∃ m' : Machine, m'.strand d.id = (m.strand d.id).note [.received d.id channel request] ∧
      m'.Meets (m.dispatch request channel outer nested) d
        (d.entering m.settings m.decorators (!m.pool.isFull)) := by
  have hreceive : (m.receive d).strand d.id
      = (m.strand d.id).note [.received d.id d.channel d.context.request] := strand_log_of_eq rfl
  have hadmitted := (sameWork_tryAdmit (m := m.receive d)).strand_eq (i := d.id)
  have hfull : (m.receive d).tryAdmit.1 = !m.pool.isFull := by
    unfold tryAdmit Pool.tryAdmit
    change (if m.pool.isFull = true then _ else _ : Bool × Pool Job).1 = _
    cases m.pool.isFull <;> rfl
  have hsettings : (m.receive d).tryAdmit.2.settings = m.settings := rfl
  have hdecorators : (m.receive d).tryAdmit.2.decorators = m.decorators := rfl
  refine ⟨(m.receive d).tryAdmit.2, ?_, ?_⟩
  . rw [hadmitted, hreceive, ← hd]
    rfl
  . unfold dispatch Dispatch.entering
    rw [hd, ← hfull]
    dsimp only
    generalize (m.receive d).tryAdmit = done at hsettings hdecorators
    obtain ⟨admitted, next⟩ := done
    dsimp only at hsettings hdecorators ⊢
    rw [← hsettings, ← hdecorators]
    cases admitted with
    | true => exact meets_advance
    | false => exact meets_shed

theorem strand_suspend {s : Suspension} {i : Nat} (h : s.run.owner.id? = some i)
    (plan : DeferralPlan) : (m.suspend s plan).strand i = (m.strand i).fly (s.flight plan) := by
  unfold suspend Suspension.flight
  cases plan.after with
  | some after => exact strand_schedule_resolve h
  | none =>
    dsimp only [resolve, Slot.resolve, Slot.onResolve]
    have hclose : (if plan.closes then m.close s.run.outer else m).strand i = m.strand i := by
      split
      . exact (@acts_close m (fun _ => False) s.run.outer).strand_eq id
      . rfl
    rw [← hclose]
    exact strand_submit_of_eq h

theorem meets_proceed {run : Run} {p : Progress} (hrun : run.owner = .dispatch d) (hp : p.Of run)
    (evaluated : Nat) :
    m.Meets (m.proceed (.dispatch d) evaluated p).1 d
      (p.prospect m.settings m.decorators d) := by
  cases p with
  | continues later =>
    refine ⟨[], _, ?_, .inl ⟨rfl, rfl⟩⟩
    have howner : later.owner.id? = some d.id := by rw [hp.owner, hrun]; rfl
    rw [Strand.note_nil]
    have hsubmit : (m.submit (.step later)).strand d.id = _ := strand_submit_of_eq howner
    unfold proceed
    rw [hsubmit]
    exact .flies _
  | suspended s plan =>
    refine ⟨[], _, ?_, .inl ⟨rfl, rfl⟩⟩
    have howner : s.run.owner.id? = some d.id := by rw [hp.owner, hrun]; rfl
    rw [Strand.note_nil]
    unfold proceed
    rw [strand_suspend howner]
    exact .flies _
  | ended result => exact meets_complete result
  | escaped =>
    exact Meets.after (@meets_complete (m.log (.escaped (some d.id))) d (.abandoned evaluated))
      (strand_log_of_eq rfl)

theorem keeps_progress_of {job : Job} {done : Machine × Progress}
    (h : m.Keeps job.run done (job.forecast m.settings)) : done.2.Of job.run := by
  obtain ⟨es, -, hcase⟩ := h
  cases hcase with
  | inl hkept =>
    rw [hkept.2]
    exact (forecast_sound job).progress
  | inr hclosed =>
    obtain ⟨-, -, evaluated, hdone⟩ := hclosed
    rw [hdone]
    trivial

theorem meets_work {job : Job} (hk : m.Knows job.run) (hd : job.run.owner = .dispatch d)
    (hch : job.run.channel = d.channel) :
    m.Meets (m.work job).1 d (job.prospect m.settings (m.turn job).1.decorators d) := by
  have hturn := keeps_turn hk
  have hgrows := (@acts_turn m (fun _ => True) job (fun i hi => ⟨trivial, hk.owner i hi⟩)
    (fun _ _ => trivial)).grows
  have hof := keeps_progress_of hturn
  have hid : job.run.owner.id? = some d.id := by rw [hd]; rfl
  unfold work
  rw [hd]
  dsimp only
  generalize m.turn job = done at hturn hgrows hof
  obtain ⟨turned, p⟩ := done
  obtain ⟨es, hstrand, hcase⟩ := hturn
  -- the turn went as foretold, or it broke off since the channel was closed in the middle of it
  cases hcase with
  | inl hkept =>
    obtain ⟨hes, hp⟩ := hkept
    have hproceed := @meets_proceed turned d job.run p hd hof job.evaluated
    rw [hgrows.settings] at hproceed
    unfold Job.prospect
    rw [← hes, ← hp]
    exact hproceed.after (hstrand d.id hid)
  | inr hclosed =>
    obtain ⟨hes, hclosed, evaluated, hp⟩ := hclosed
    dsimp only at hp hclosed
    rw [hch] at hclosed
    subst hp
    refine ⟨es, .abandons d, ?_, .inr ⟨?_, hclosed, d.tried, d.current, rfl⟩⟩
    . rw [← hstrand d.id hid]
      dsimp only [proceed, complete]
      rw [strand_finish]
      exact .abandons d turned.clock
    . exact hes.trans (List.prefix_append _ _)

end Machine
end PageDispatch
