import PageDispatch.Proofs.Dispatch.Course
import PageDispatch.Proofs.Machine.Abreast

/-!
This module contains dispatches at two places side by side. What a job makes of one of them it
makes of the other one, and what is told of them is the same but for the places. Once a response
was sent it does not matter any more which channels are open.
-/

namespace PageDispatch

/-- Whether two strands are the same but for their places; as long as one waits, `agree` holds. -/
inductive Strand.Twins (p p' : Place) (agree : Prop) : Strand → Strand → Prop
  | flies {f : Flight} {es es' : List Event} (hf : f.placed p = f) (hagree : agree)
    (hes : es'.map Event.plain = es.map Event.plain) :
    Twins p p' agree ⟨{f}, 0, es⟩ ⟨{f.placed p'}, 0, es'⟩
  | owes {r : Response} {es es' : List Event} (hagree : agree)
    (hes : es'.map Event.plain = es.map Event.plain) :
    Twins p p' agree ⟨0, {(p.channel, r)}, es⟩ ⟨0, {(p'.channel, r)}, es'⟩
  | rests {es es' : List Event} (hes : es'.map Event.plain = es.map Event.plain) :
    Twins p p' agree ⟨0, 0, es⟩ ⟨0, 0, es'⟩

theorem Strand.Twins.flying {p p' : Place} {agree : Prop} {es es' : List Event} (f : Flight)
    (hagree : agree) (hes : es'.map Event.plain = es.map Event.plain) :
    Twins p p' agree ⟨{f.placed p}, 0, es⟩ ⟨{f.placed p'}, 0, es'⟩ := by
  rw [← @Flight.placed_placed p p' f]
  exact .flies f.placed_placed hagree hes

theorem Strand.Twins.note {p p' : Place} {agree : Prop} {s s' : Strand} {es es' : List Event}
    (h : Twins p p' agree s s') (hes : es'.map Event.plain = es.map Event.plain) :
    Twins p p' agree (s.note es) (s'.note es') := by
  have hmap : ∀ {before before' : List Event},
      before'.map Event.plain = before.map Event.plain →
      (before' ++ es').map Event.plain = (before ++ es).map Event.plain := by
    intro before before' hbefore
    rw [List.map_append, List.map_append, hbefore, hes]
  cases h with
  | flies hf hagree hbefore => exact .flies hf hagree (hmap hbefore)
  | owes hagree hbefore => exact .owes hagree (hmap hbefore)
  | rests hbefore => exact .rests (hmap hbefore)

namespace Machine

/-- Whether two machines are abreast in the middle of a job of the dispatches at two places. -/
structure Level (p p' : Place) (m m' : Machine) : Prop extends Abreast p p' m m' where
  bare : ∃ es es', m.strand p.id = ⟨0, 0, es⟩ ∧ m'.strand p'.id = ⟨0, 0, es'⟩ ∧
    es'.map Event.plain = es.map Event.plain

/-- Whether two machines hold the same for the dispatches at two places. -/
structure Even (p p' : Place) (m m' : Machine) : Prop where
  settings : m'.settings = m.settings
  strands : Strand.Twins p p' (m'.isOpen p'.channel = m.isOpen p.channel) (m.strand p.id)
    (m'.strand p'.id)

variable {p p' : Place} {m m' n n' : Machine} {d : Dispatch} {e e' : Event}

theorem Level.of_acts (h : Level p p' m m') (hacts : Acts (fun _ => False) m n)
    (hacts' : Acts (fun _ => False) m' n') (ha : Abreast p p' n n') : Level p p' n n' where
  toAbreast := ha
  bare := by
    rw [hacts.strand_eq id, hacts'.strand_eq id]
    exact h.bare

theorem Level.log (h : Level p p' m m') (he : e.dispatch? = some p.id)
    (he' : e'.dispatch? = some p'.id) (hplain : e'.plain = e.plain) :
    Level p p' (m.log e) (m'.log e') where
  toAbreast := h.toAbreast.log e e'
  bare := by
    obtain ⟨es, es', hs, hs', hes⟩ := h.bare
    refine ⟨es ++ [e], es' ++ [e'], ?_, ?_, ?_⟩
    . rw [strand_log_of_eq he, hs]
      rfl
    . rw [strand_log_of_eq he', hs']
      rfl
    . rw [List.map_append, List.map_append, hes, List.map_singleton, List.map_singleton, hplain]

theorem Level.of_sameWork (h : Level p p' m m') (hs : m.SameWork n) (hs' : m'.SameWork n') :
    Level p p' n n' where
  toAbreast := h.toAbreast.of_eq hs.settings hs'.settings (isOpen_eq_of_wires_eq hs.wires)
    (isOpen_eq_of_wires_eq hs'.wires)
  bare := by
    rw [hs.strand_eq, hs'.strand_eq]
    exact h.bare

theorem Level.even (h : Level p p' m m') : Even p p' m m' where
  settings := h.settings
  strands := by
    obtain ⟨es, es', hs, hs', hes⟩ := h.bare
    rw [hs, hs']
    exact .rests hes

theorem Even.log (h : Even p p' m m') (he : e.dispatch? = some p.id)
    (he' : e'.dispatch? = some p'.id) (hplain : e'.plain = e.plain) :
    Even p p' (m.log e) (m'.log e') where
  settings := h.settings
  strands := by
    rw [strand_log_of_eq he, strand_log_of_eq he']
    exact h.strands.note (congrArg (· :: []) hplain)

theorem Even.of_sameWork (h : Even p p' m m') (hs : m.SameWork n) (hs' : m'.SameWork n') :
    Even p p' n n' where
  settings := by rw [hs.settings, hs'.settings, h.settings]
  strands := by
    rw [hs.strand_eq, hs'.strand_eq, isOpen_eq_of_wires_eq hs.wires,
      isOpen_eq_of_wires_eq hs'.wires]
    exact h.strands

theorem Level.call {α : Type} (h : Level p p' m m') (hlike : p.Like p') (c : Call α) :
    Level p p' (m.call p.outer c).1 (m'.call p'.outer c).1 :=
  h.of_acts (acts_call c) (acts_call c) (h.toAbreast.call hlike c)

theorem Level.guarded (h : Level p p' m m') (hlike : p.Like p') (c : Call Response) :
    Level p p' (m.guarded p.outer c).1 (m'.guarded p'.outer c).1 := by
  refine h.of_acts (acts_guarded c) (acts_guarded c) ?_
  rw [guarded_fst, guarded_fst]
  exact h.toAbreast.call hlike c

section Chain

theorem Abreast.decorate (h : Abreast p p' m m') (hlike : p.Like p') (context : Context)
    (decorators : List Decorator) (chain : HandlerChain) :
    Abreast p p' (m.decorate p.outer context decorators chain).1
      (m'.decorate p'.outer context decorators chain).1 := by
  induction decorators generalizing m m' chain with
  | nil => exact h
  | cons decorator rest ih =>
    have hcall := h.call hlike (decorator.decorate chain.view context)
    unfold Machine.decorate Machine.call
    cases (decorator.decorate chain.view context).result with
    | ok result =>
      cases result with
      | ok edits => exact ih hcall _
      | error e => exact hcall
    | error payload => exact hcall

theorem Abreast.buildChain (h : Abreast p p' m m') (hlike : p.Like p')
    (hd : m'.decorators = m.decorators) (page : Page) :
    Abreast p p' (m.buildChain (d.placed p) page).1 (m'.buildChain (d.placed p') page).1 := by
  have hcall := h.call hlike (page.build d.context)
  have hcontext : (d.placed p).context = d.context := rfl
  have hcontext' : (d.placed p').context = d.context := rfl
  rw [buildChain_fst, buildChain_fst]
  unfold construct Machine.call
  rw [hd, hcontext, hcontext']
  cases (page.build d.context).result with
  | ok result =>
    cases result with
    | ok chain => exact hcall.decorate hlike _ _ _
    | error e => exact hcall
  | error payload => exact hcall

theorem Level.buildChain (h : Level p p' m m') (hlike : p.Like p')
    (hd : m'.decorators = m.decorators) (page : Page) :
    Level p p' (m.buildChain (d.placed p) page).1 (m'.buildChain (d.placed p') page).1 :=
  h.of_acts (acts_buildChain _ page) (acts_buildChain _ page)
    (h.toAbreast.buildChain hlike hd page)

end Chain

section Ending

/-! The end of a dispatch, with or without a response. -/

theorem Even.finish (h : Even p p' m m') (disposition : Disposition) (status : Option Status) :
    Even p p' (m.finish (d.placed p) disposition status)
      (m'.finish (d.placed p') disposition status) := by
  have hcount : ∀ m : Machine, ∀ latency,
      m.SameWork { m with metrics := m.metrics.recordEnd disposition latency } := by
    intro m latency
    exact ⟨rfl, List.prefix_refl _, id, rfl, rfl, rfl, rfl, rfl⟩
  exact (h.of_sameWork (hcount m _) (hcount m' _)).log rfl rfl rfl

theorem Level.sendNow (h : Level p p' m m') (outer outer' : ChannelId) (r : Response) :
    Even p p' (m.sendNow p.id p.channel outer r) (m'.sendNow p'.id p'.channel outer' r) := by
  cases hopen : m.isOpen p.channel with
  | false =>
    have hopen' : m'.isOpen p'.channel = false := by rw [h.isOpen, hopen]
    rw [sendNow_of_closed hopen, sendNow_of_closed hopen']
    exact h.even.log rfl rfl rfl
  | true =>
    have hopen' : m'.isOpen p'.channel = true := by rw [h.isOpen, hopen]
    have hacts := @acts_sendNow_of_open m p.id p.channel outer r hopen
    have hacts' := @acts_sendNow_of_open m' p'.id p'.channel outer' r hopen'
    obtain ⟨es, es', hs, hs', hes⟩ := h.bare
    constructor
    case settings => rw [hacts.grows.settings, hacts'.grows.settings]; exact h.settings
    case strands =>
      rw [strand_sendNow_of_open hopen, strand_sendNow_of_open hopen', hs, hs']
      exact (Strand.Twins.rests hes).note rfl

theorem Level.deliver (h : Level p p' m m') (r : Response) :
    Even p p' (m.deliver (d.placed p) r) (m'.deliver (d.placed p') r) := by
  unfold Machine.deliver
  cases r.delay.filter (0 < ·.milliseconds) with
  | none => exact h.sendNow _ _ r
  | some delay =>
    obtain ⟨es, es', hs, hs', hes⟩ := h.bare
    dsimp only
    constructor
    case settings => exact h.settings
    case strands =>
      have howes : ∀ {m : Machine} {p : Place} {es : List Event}, m.strand p.id = ⟨0, 0, es⟩ →
          (m.schedule delay.milliseconds (.deliver p.id p.channel p.outer r)).strand p.id
            = ⟨0, {(p.channel, r)}, es⟩ := by
        intro m p es hs
        rw [strand_schedule_deliver, hs]
        rfl
      have hstrand := howes hs
      have hstrand' := howes hs'
      dsimp only [Dispatch.placed]
      rw [hstrand, hstrand']
      exact .owes h.isOpen hes

theorem Level.finishWith (h : Level p p' m m') (disposition : Disposition) (r : Response) :
    Even p p' (m.finishWith (d.placed p) disposition r)
      (m'.finishWith (d.placed p') disposition r) :=
  (h.deliver r).finish disposition _

theorem Level.notFound (h : Level p p' m m') (hlike : p.Like p') :
    Even p p' (m.notFound (d.placed p)) (m'.notFound (d.placed p')) := by
  have hopen : m'.isOpen (d.placed p').channel = m.isOpen (d.placed p).channel := h.isOpen
  have hcall : m'.settings.fallback.notFound (d.placed p').context.request
      = m.settings.fallback.notFound (d.placed p).context.request := by
    rw [h.settings]
    rfl
  unfold Machine.notFound
  rw [hopen]
  split
  . dsimp only
    rw [guarded_snd, guarded_snd, hcall]
    exact Level.finishWith (d := { d with current := none }) (h.guarded hlike _) _ _
  . exact h.even.finish _ _

theorem Level.conclude (h : Level p p' m m') (hlike : p.Like p') (a : Answer) :
    Even p p' (m.conclude (d.placed p) a) (m'.conclude (d.placed p') a) := by
  unfold Machine.conclude
  cases a.fatal with
  | none => exact h.finishWith _ _
  | some fatal =>
    have hcall : m'.settings.fallback.onError (d.placed p').context.request fatal
        = m.settings.fallback.onError (d.placed p).context.request fatal := by
      rw [h.settings]
      rfl
    dsimp only
    rw [guarded_snd, guarded_snd, hcall]
    exact (h.guarded hlike _).finishWith _ _

theorem Level.breakOff (h : Level p p' m m') (hlike : p.Like p') (page : String) (e : CauseChain) :
    Even p p' (m.breakOff (d.placed p) page e) (m'.breakOff (d.placed p') page e) := by
  have hfail : ∀ (m : Machine) (d : Dispatch),
      m.failPage page d.context d.channel d.outer (.dispatch d) e
        = m.fail (d.start (.empty page)) "<page>" none (.pageBuild e) .empty := fun _ _ => rfl
  unfold Machine.breakOff
  rw [hfail, hfail]
  cases hopen : m.isOpen p.channel with
  | false =>
    have hopen' : m'.isOpen p'.channel = false := by rw [h.isOpen, hopen]
    have hclosed := @fail_of_closed m ((d.placed p).start (.empty page)) "<page>" none
      (.pageBuild e) .empty hopen
    have hclosed' := @fail_of_closed m' ((d.placed p').start (.empty page)) "<page>" none
      (.pageBuild e) .empty hopen'
    rw [hclosed, hclosed']
    exact h.even.finish _ _
  | true =>
    have hopen' : m'.isOpen p'.channel = true := by rw [h.isOpen, hopen]
    have htold := @fail_of_open m ((d.placed p).start (.empty page)) "<page>" none
      (.pageBuild e) .empty hopen
    have htold' := @fail_of_open m' ((d.placed p').start (.empty page)) "<page>" none
      (.pageBuild e) .empty hopen'
    have hreport : ((d.placed p').start (.empty page)).report "<page>" none (.pageBuild e)
        = ((d.placed p).start (.empty page)).report "<page>" none (.pageBuild e) := rfl
    have hfailed : ((d.placed p').start (.empty page)).failed m.settings "<page>" none
        (.pageBuild e) .empty
        = ((d.placed p).start (.empty page)).failed m.settings "<page>" none (.pageBuild e)
          .empty := rfl
    rw [htold, htold', h.settings, hreport, hfailed]
    generalize ((d.placed p).start (.empty page)).report "<page>" none (.pageBuild e) = report
    have hlog : Level p p' (m.log (.reporting (some p.id) report))
        (m'.log (.reporting (some p'.id) report)) := h.log rfl rfl rfl
    exact (hlog.call hlike _).conclude hlike _

end Ending

section Advance

theorem id?_placed {job : Job} {owner : Dispatch} (h : job.run.owner = .dispatch owner) :
    (job.placed p).run.owner.id? = some p.id := by
  rw [Job.run_placed]
  dsimp only [Run.placed]
  rw [h]
  rfl

theorem Level.submit {job : Job} {owner : Dispatch} (h : Level p p' m m')
    (howner : job.run.owner = .dispatch owner) :
    Even p p' (m.submit (job.placed p)) (m'.submit (job.placed p')) where
  settings := h.settings
  strands := by
    obtain ⟨es, es', hs, hs', hes⟩ := h.bare
    have hflies : ∀ {m : Machine} {p : Place} {es : List Event}, m.strand p.id = ⟨0, 0, es⟩ →
        (m.submit (job.placed p)).strand p.id
          = ⟨{(Flight.queued job).placed p}, 0, es⟩ := by
      intro m p es hs
      rw [strand_submit_of_eq (id?_placed howner), hs]
      rfl
    rw [hflies hs, hflies hs']
    exact .flying _ h.isOpen hes

theorem Level.tryPage (h : Level p p' m m') (hlike : p.Like p')
    (hd : m'.decorators = m.decorators) (page : Page) :
    Even p p' (m.tryPage (d.placed p) page) (m'.tryPage (d.placed p') page) := by
  have hcount : ∀ m : Machine, m.SameWork { m with metrics := m.metrics.recordPage } := by
    intro m
    exact ⟨rfl, List.prefix_refl _, id, rfl, rfl, rfl, rfl, rfl⟩
  have hbuilding : Level p p'
      (({ m with metrics := m.metrics.recordPage } : Machine).log
        (.building (d.placed p).id page.name))
      (({ m' with metrics := m'.metrics.recordPage } : Machine).log
        (.building (d.placed p').id page.name)) :=
    (h.of_sameWork (hcount m) (hcount m')).log rfl rfl rfl
  unfold Machine.tryPage
  dsimp only
  generalize hnext : ({ m with metrics := m.metrics.recordPage } : Machine).log _ = next
    at hbuilding ⊢
  generalize hnext' : ({ m' with metrics := m'.metrics.recordPage } : Machine).log _ = next'
    at hbuilding ⊢
  have hdecorators : next'.decorators = next.decorators := by
    rw [← hnext, ← hnext']
    exact hd
  have hbuilt := hbuilding.buildChain (d := d) hlike hdecorators page
  have hchain := @buildChain_snd next (d.placed p) page
  have hchain' := @buildChain_snd next' (d.placed p') page
  have hsame : (d.placed p').building next.decorators page
      = (d.placed p).building next.decorators page := rfl
  rw [hdecorators, hsame, ← hchain] at hchain'
  generalize next.buildChain (d.placed p) page = done at hbuilt hchain'
  generalize next'.buildChain (d.placed p') page = done' at hbuilt hchain'
  obtain ⟨built, result⟩ := done
  obtain ⟨built', result'⟩ := done'
  dsimp only at hbuilt hchain'
  subst hchain'
  cases result' with
  | ok chain =>
    have hstarts : (Job.step (d.start chain)).run.owner = .dispatch d := rfl
    exact hbuilt.submit hstarts
  | error e => exact hbuilt.breakOff hlike _ e

theorem Level.advance (h : Level p p' m m') (hlike : p.Like p')
    (hd : m'.decorators = m.decorators) :
    Even p p' (m.advance (d.placed p)) (m'.advance (d.placed p')) := by
  have hpage : (d.placed p).pages[(d.placed p).tried]? = d.pages[d.tried]? := rfl
  have hpage' : (d.placed p').pages[(d.placed p').tried]? = d.pages[d.tried]? := rfl
  unfold Machine.advance
  rw [hpage, hpage']
  cases d.pages[d.tried]? with
  | none => exact h.notFound hlike
  | some page => exact h.tryPage (d := d.trying page) hlike hd page

theorem Level.complete (h : Level p p' m m') (hlike : p.Like p')
    (hd : m'.decorators = m.decorators) (result : ChainResult) :
    Even p p' (m.complete (.dispatch (d.placed p)) result)
      (m'.complete (.dispatch (d.placed p')) result) := by
  cases result with
  | answered a => exact h.conclude hlike a
  | rejected evaluated rejecter =>
    have hlog : Level p p' (m.log (.rejected p.id d.tried)) (m'.log (.rejected p'.id d.tried)) :=
      h.log rfl rfl rfl
    exact hlog.advance hlike hd
  | abandoned evaluated => exact h.even.finish _ _

end Advance

section Work

variable {owner : Dispatch} {job : Job} {run : Run}

theorem Level.suspend {s : Suspension} (h : Level p p' m m') (hlike : p.Like p')
    (howner : s.run.owner = .dispatch owner) (plan : DeferralPlan) :
    Even p p' (m.suspend (s.placed p) plan) (m'.suspend (s.placed p') plan) := by
  have hid : ∀ p : Place, (s.placed p).run.owner.id? = some p.id := by
    intro p
    exact @id?_placed p (.resume s plan.resolved) owner howner
  have hflight : ∀ p : Place, (s.placed p).flight plan = (s.flight plan).placed p := by
    intro p
    unfold Suspension.flight
    split <;> rfl
  have hclosed : Abreast p p' (m.suspend (s.placed p) plan) (m'.suspend (s.placed p') plan) := by
    unfold Machine.suspend
    cases plan.after with
    | some after => exact h.toAbreast.of_eq rfl rfl rfl rfl
    | none =>
      cases plan.closes with
      | true => exact (h.toAbreast.close hlike).of_eq rfl rfl rfl rfl
      | false => exact h.toAbreast.of_eq rfl rfl rfl rfl
  obtain ⟨es, es', hs, hs', hes⟩ := h.bare
  constructor
  case settings => exact hclosed.settings
  case strands =>
    rw [strand_suspend (hid p), strand_suspend (hid p'), hflight, hflight, hs, hs']
    exact .flying _ hclosed.isOpen hes

theorem Level.proceed {progress : Progress} (h : Level p p' m m') (hlike : p.Like p')
    (hd : m'.decorators = m.decorators) (hof : progress.Of run)
    (howner : run.owner = .dispatch owner) (evaluated evaluated' : Nat) :
    Even p p' (m.proceed (.dispatch (d.placed p)) evaluated (progress.placed p)).1
      (m'.proceed (.dispatch (d.placed p')) evaluated' (progress.placed p')).1 := by
  cases progress with
  | continues later =>
    have hlater : (Job.step later).run.owner = .dispatch owner := hof.owner.trans howner
    exact h.submit hlater
  | suspended s plan => exact h.suspend hlike (hof.owner.trans howner) plan
  | ended result => exact h.complete hlike hd result
  | escaped =>
    have hlog : Level p p' (m.log (.escaped (some p.id))) (m'.log (.escaped (some p'.id))) :=
      h.log rfl rfl rfl
    exact hlog.even.finish _ _

theorem told_eq_filter (m : Machine) (i : Nat) :
    m.told (some i) = (m.strand i).events.filter Event.isOfRun := by
  unfold told strand
  rw [List.filter_filter]
  rfl

/-- The events of a job that are told of its run are all that its strand notes. -/
theorem strand_turn {i : Nat} (hk : m.Knows job.run) (hi : job.run.owner.id? = some i) :
    (m.turn job).1.strand i = (m.strand i).note (job.seeing m.settings (m.glance job)).events := by
  obtain ⟨es, hstrand, hcase⟩ := keeps_turn hk
  have hsound := (@forecast_sound m.settings job).events
  have hes : ∀ e ∈ es, e.isOfRun = true := by
    cases hcase with
    | inl hkept =>
      rw [hkept.1]
      exact hsound
    | inr hclosed => exact fun e he => hsound e (hclosed.1.subset he)
  have htold := (does_turn hk).told
  rw [hi, told_eq_filter, told_eq_filter, hstrand i hi] at htold
  dsimp only [Strand.note] at htold
  rw [List.filter_append, List.filter_eq_self.mpr hes] at htold
  rw [hstrand i hi, List.append_cancel_left htold]

variable {first last first' last' : Machine}

theorem Level.turn (h : Level p p' m m') (hlike : p.Like p') (hjob : job.placed p = job)
    (howner : job.run.owner = .dispatch owner) (hb : Between p.channel first last m)
    (hb' : Between p'.channel first' last' m') (hk : m.Knows job.run)
    (hk' : m'.Knows (job.placed p').run) (hlast : (m.turn job).1.Grows last)
    (hlast' : (m'.turn (job.placed p')).1.Grows last') :
    Level p p' (m.turn job).1 (m'.turn (job.placed p')).1 ∧
      (m.turn job).2.placed p = (m.turn job).2 ∧
      (m'.turn (job.placed p')).2 = (m.turn job).2.placed p' := by
  have hturn := h.toAbreast.turn hlike hb hb' (by rw [hjob]; exact hk) hk'
    (by rw [hjob]; exact hlast) hlast'
  rw [hjob] at hturn
  have hrun : job.run.outer = p.outer ∧ job.run.channel = p.channel := by
    rw [← hjob, Job.run_placed]
    exact ⟨rfl, rfl⟩
  have hhere : p.outer = p.channel ↔ job.run.outer = job.run.channel := by
    rw [hrun.1, hrun.2]
  have hthere : p'.outer = p'.channel ↔ job.run.outer = job.run.channel := hlike.trans hhere
  have hseeing := @seeing_placed p m.settings job hhere (m.glance job)
  have hseeing' := @seeing_placed p' m.settings job hthere (m.glance job)
  rw [hjob] at hseeing
  have hdone := (does_turn hk).progress
  have hdone' := (does_turn hk').progress
  rw [h.settings, hturn.1] at hdone'
  have hid : job.run.owner.id? = some p.id := by
    rw [← hjob]
    exact id?_placed howner
  have hstrand := strand_turn hk hid
  have hstrand' := strand_turn hk' (id?_placed howner)
  rw [h.settings, hturn.1] at hstrand'
  refine ⟨⟨hturn.2, ?_⟩, ?_, ?_⟩
  . obtain ⟨es, es', hs, hs', hes⟩ := h.bare
    refine ⟨_, _, hstrand.trans (by rw [hs]; rfl), hstrand'.trans (by rw [hs']; rfl), ?_⟩
    rw [List.map_append, List.map_append, hes, hseeing'.events]
  . rw [hdone]
    exact hseeing.progress.symm
  . rw [hdone', hdone]
    exact hseeing'.progress

/-- What a job makes of one dispatch it makes of the other one. -/
theorem Level.work (h : Level p p' m m') (hlike : p.Like p') (hjob : job.placed p = job)
    (howner : job.run.owner = .dispatch owner) (hb : Between p.channel first last m)
    (hb' : Between p'.channel first' last' m') (hfit : m.Fits job.run) (hm : m.Sane)
    (hfit' : m'.Fits (job.placed p').run) (hm' : m'.Sane)
    (hlast : (m.work job).1.Grows last) (hlast' : (m'.work (job.placed p')).1.Grows last')
    (hd : last.decorators = m.decorators) (hd' : last'.decorators = m'.decorators)
    (hsame : m'.decorators = m.decorators) :
    Even p p' (m.work job).1 (m'.work (job.placed p')).1 := by
  have hgrows := (acts_turn_of_fits hfit).grows
  have hgrows' := (acts_turn_of_fits hfit').grows
  have hproceed := (grows_proceed (hfit.of_grows hgrows) rfl).trans hlast
  have hproceed' := (grows_proceed (hfit'.of_grows hgrows') rfl).trans hlast'
  have ⟨hturned, hhere, hthere⟩ := h.turn hlike hjob howner hb hb' (hm.knows hfit)
    (hm'.knows hfit') hproceed hproceed'
  have hdecorators := hgrows.decorators_eq hproceed hd
  have hdecorators' := hgrows'.decorators_eq hproceed' hd'
  have hof := keeps_progress_of (keeps_turn (hm.knows hfit))
  have howner' : (job.placed p').run.owner = .dispatch (owner.placed p') := by
    rw [Job.run_placed]
    dsimp only [Run.placed]
    rw [howner]
    rfl
  -- the job is at its place already, and so is the dispatch that it belongs to
  have hown : owner.placed p = owner := by
    have hrun := congrArg (fun job => job.run.owner) hjob
    rw [Job.run_placed] at hrun
    dsimp only [Run.placed] at hrun
    rw [howner] at hrun
    injection hrun
  unfold Machine.work
  dsimp only
  rw [howner, howner', hthere]
  generalize m.turn job = done at hturned hhere hdecorators hof
  obtain ⟨turned, progress⟩ := done
  dsimp only at hturned hhere hdecorators hof ⊢
  have heven := hturned.proceed (d := owner) hlike (by rw [hdecorators, hdecorators', hsame]) hof
    howner job.evaluated (job.placed p').evaluated
  rw [hown, hhere] at heven
  exact heven

end Work

end Machine
end PageDispatch
