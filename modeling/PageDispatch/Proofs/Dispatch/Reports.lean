import PageDispatch.Proofs.Dispatch.Story
import PageDispatch.Proofs.Machine.Reopening
import PageDispatch.Proofs.Run.Blame

/-!
This module contains the verification of what the hook is told about a dispatch: nothing, unless the
dispatch fails, and then one failure, which is the last thing that happens to its pages.
-/

namespace PageDispatch

def Event.disposition? : Event → Option Disposition
  | finished _ _ summary => some summary.disposition
  | _ => none

/-- Whether a page builds a chain of a certain name for a request. -/
def Page.Builds (page : Page) (request : Request) (name : String) : Prop :=
  ∃ chain, (page.build (.forRequest request)).result = .ok (.ok chain) ∧ chain.name = name

/-- Whether a failure is one that no unit can be blamed for. -/
def UnitFailure.isNobodys : UnitFailure → Bool
  | lockedExhaustion | pageBuild _ => true
  | _ => false

/-- A story that comes to its end with the report of a failure, and holds no other report. -/
inductive FailureReport.Closes (i : Nat) (request : Request) (pages : List Page)
    (report : FailureReport) : List Event → Prop
  | run {before es : List Event} {page : Page} {name : String} {evaluated : Nat}
    (hbefore : ∀ e ∈ before, e.report? = none) (hpage : page ∈ pages)
    (hname : page.Builds request name) (hes : Tallies 0 es evaluated)
    (h : report.Blames name evaluated) :
    Closes i request pages report
      (before ++ .building i page.name :: (es ++ [.reporting (some i) report]))
  | page {before : List Event} {page : Page} {e : CauseChain}
    (hbefore : ∀ e ∈ before, e.report? = none) (hpage : page ∈ pages)
    (h : report = ⟨request.id, page.name, "<page>", none, .pageBuild e⟩) :
    Closes i request pages report (before ++ [.building i page.name, .reporting (some i) report])

section Closes

variable {i : Nat} {request : Request} {pages : List Page} {report : FailureReport}
  {es : List Event}

theorem report?_of_isEffort (h : ∀ e ∈ es, e.isEffort = true) : ∀ e ∈ es, e.report? = none := by
  intro e he
  have heffort := h e he
  cases e <;> first | rfl | cases heffort

theorem reports_of_isEffort (h : ∀ e ∈ es, e.isEffort = true) :
    (es.filter Event.isInner).filterMap Event.report? = [] := by
  apply List.filterMap_eq_nil_iff.mpr
  intro e he
  exact report?_of_isEffort h e (List.mem_filter.mp he).1

theorem FailureReport.Closes.reports_eq (h : report.Closes i request pages es) :
    es.filterMap Event.report? = [report] := by
  cases h with
  | run hbefore hpage hname hes h =>
    rw [List.filterMap_append, List.filterMap_eq_nil_iff.mpr hbefore, List.nil_append,
      List.filterMap_cons_none rfl, List.filterMap_append,
      List.filterMap_eq_nil_iff.mpr (report?_of_isEffort hes.efforts)]
    rfl
  | page hbefore hpage h =>
    rw [List.filterMap_append, List.filterMap_eq_nil_iff.mpr hbefore]
    rfl

theorem isNobodys_of_isOfWork {failure : UnitFailure} (h : failure.isOfWork = true) :
    failure.isNobodys = false := by
  cases failure <;> first | rfl | cases h

/-- A report tells the position of a unit, unless there is none to blame. -/
theorem FailureReport.Closes.position_eq_none_iff (h : report.Closes i request pages es) :
    report.position = none ↔ report.failure.isNobodys = true := by
  cases h with
  | run hbefore hpage hname hes h =>
    cases h with
    | work h hf => simp [isNobodys_of_isOfWork hf]
    | unmade => simp [UnitFailure.isNobodys]
    | exhausted => simp [UnitFailure.isNobodys]
  | page hbefore hpage h =>
    subst h
    simp [UnitFailure.isNobodys]

end Closes

namespace Strand

def story (s : Strand) : List Event := s.events.filter Event.isInner

def reports (s : Strand) : List FailureReport := s.story.filterMap Event.report?

def dispositions (s : Strand) : List Disposition := s.events.filterMap Event.disposition?

/-- Whether nothing more is done about the pages of a dispatch once it is finished. -/
def Rests (s : Strand) : Prop :=
  ∃ es last, s.events = es ++ last ∧ (∀ e ∈ es, e.disposition? = none) ∧
    ∀ e ∈ last, e.isInner = false

/-- Whether a dispatch is neither on its way nor finished, and no failure was reported. -/
structure Pauses (s : Strand) : Prop where
  flights : s.flights = 0
  story : ∀ e ∈ s.story, e.report? = none
  dispositions : s.dispositions = []

/-- What happened to a dispatch whose chain is on its way, and how far the chain has come. -/
structure Tries (s : Strand) (d : Dispatch) (request : Request) (f : Flight)
    (before es : List Event) (page : Page) (name : String) (evaluated : Nat) : Prop where
  owner : f.run.owner = .dispatch d
  context : d.context = .forRequest request
  story : s.story = before ++ .building d.id page.name :: es
  earlier : ∀ e ∈ before, e.report? = none
  listed : page ∈ d.pages
  builds : page.Builds request name
  tallies : Tallies 0 es evaluated
  reached : f.At name evaluated
  dispositions : s.dispositions = []

/-- The reports and the dispositions of a dispatch, and how far it is with its page. -/
inductive Reports (i : Nat) (request : Request) (pages : List Page) (s : Strand) : Prop
  | busy {f : Flight} {d : Dispatch} {before es : List Event} {page : Page} {name : String}
    {evaluated : Nat} (hflights : s.flights = {f}) (hid : d.id = i) (hpages : d.pages = pages)
    (h : s.Tries d request f before es page name evaluated)
  | quiet (hflights : s.flights = 0) (hstory : ∀ e ∈ s.story, e.report? = none)
    (hd : .failed ∉ s.dispositions) (hrests : s.Rests)
  | failed {report : FailureReport} (hflights : s.flights = 0)
    (hstory : report.Closes i request pages s.story) (hd : s.dispositions = [.failed])
    (hrests : s.Rests)

variable {i : Nat} {request : Request} {pages : List Page} {s s' : Strand} {es : List Event}
  {closed : Prop} {d : Dispatch} {disposition : Disposition} {r : Response}

theorem story_note (s : Strand) (es : List Event) :
    (s.note es).story = s.story ++ es.filter Event.isInner :=
  List.filter_append ..

theorem story_note_of_inner (s : Strand) (h : ∀ e ∈ es, e.isInner = true) :
    (s.note es).story = s.story ++ es := by
  rw [story_note, List.filter_eq_self.mpr h]

theorem reports_note (s : Strand) (es : List Event) :
    (s.note es).reports = s.reports ++ (es.filter Event.isInner).filterMap Event.report? := by
  unfold reports
  rw [story_note, List.filterMap_append]

theorem dispositions_note (s : Strand) (es : List Event) :
    (s.note es).dispositions = s.dispositions ++ es.filterMap Event.disposition? :=
  List.filterMap_append

theorem dispositions_note_of_inner (s : Strand) (h : ∀ e ∈ es, e.isInner = true) :
    (s.note es).dispositions = s.dispositions := by
  have hnone : es.filterMap Event.disposition? = [] := by
    rw [List.filterMap_eq_nil_iff]
    intro e he
    have hinner := h e he
    cases e <;> first | rfl | cases hinner
  rw [dispositions_note, hnone, List.append_nil]

theorem rests_of_dispositions (h : s.dispositions = []) : s.Rests :=
  ⟨s.events, [], (List.append_nil _).symm, List.filterMap_eq_nil_iff.mp h, List.forall_mem_nil _⟩

theorem Rests.append (h : s.Rests) (hevents : s'.events = s.events ++ es)
    (hes : ∀ e ∈ es, e.isInner = false) : s'.Rests := by
  obtain ⟨first, last, heq, hfirst, hlast⟩ := h
  refine ⟨first, last ++ es, ?_, hfirst, List.forall_mem_append.mpr ⟨hlast, hes⟩⟩
  rw [hevents, heq, List.append_assoc]

theorem Rests.isInner_eq_false {before after : List Event} {nested : Bool}
    {summary : DispatchSummary} (h : s.Rests)
    (hevents : s.events = before ++ .finished i nested summary :: after) :
    ∀ e ∈ after, e.isInner = false := by
  obtain ⟨first, last, heq, hfirst, hlast⟩ := h
  have hsuffix : after <:+ last := by
    cases List.append_eq_append_iff.mp (heq.symm.trans hevents) with
    | inl hlater =>
      obtain ⟨between, -, hlater⟩ := hlater
      exact ⟨between ++ [.finished i nested summary], by rw [hlater, List.append_assoc]; rfl⟩
    | inr hearlier =>
      obtain ⟨between, hbetween, hearlier⟩ := hearlier
      cases between with
      | nil => exact ⟨[.finished i nested summary], hearlier⟩
      | cons e between =>
        -- the dispatch is not finished by an event of the first ones
        injection hearlier with he
        have hmem : e ∈ first := by
          rw [hbetween]
          exact List.mem_append_right _ List.mem_cons_self
        cases he ▸ hfirst e hmem
  intro e he
  exact hlast e (hsuffix.subset he)

/-- What is told about a response does not count. -/
theorem Reports.append (h : s.Reports i request pages) (hflights : s'.flights = s.flights)
    (hevents : s'.events = s.events ++ es) (hes : ∀ e ∈ es, e.isInner = false)
    (hnone : ∀ e ∈ es, e.disposition? = none) : s'.Reports i request pages := by
  have hinner : es.filter Event.isInner = [] := by
    rw [List.filter_eq_nil_iff]
    intro e he
    rw [hes e he]
    exact Bool.false_ne_true
  have hsame : s'.story = s.story := by
    unfold story
    rw [hevents, List.filter_append, hinner, List.append_nil]
  have hsaid : s'.dispositions = s.dispositions := by
    unfold dispositions
    rw [hevents, List.filterMap_append, List.filterMap_eq_nil_iff.mpr hnone, List.append_nil]
  cases h with
  | busy hbusy hid hpages h =>
    exact .busy (hflights.trans hbusy) hid hpages
      { h with story := hsame.trans h.story, dispositions := hsaid.trans h.dispositions }
  | quiet hidle hstory hd hrests =>
    exact .quiet (hflights.trans hidle) (hsame ▸ hstory) (hsaid ▸ hd) (hrests.append hevents hes)
  | failed hidle hstory hd hrests =>
    exact .failed (hflights.trans hidle) (hsame ▸ hstory) (hsaid.trans hd)
      (hrests.append hevents hes)

theorem Pauses.note (h : s.Pauses) (hes : ∀ e ∈ es, e.isInner = true)
    (hquiet : ∀ e ∈ es, e.report? = none) : (s.note es).Pauses where
  flights := h.flights
  story := by
    rw [story_note_of_inner s hes]
    exact List.forall_mem_append.mpr ⟨h.story, hquiet⟩
  dispositions := (dispositions_note_of_inner s hes).trans h.dispositions

section Tries

variable {f : Flight} {before es : List Event} {page : Page} {name : String} {evaluated : Nat}

theorem Tries.quiet (h : s.Tries d request f before es page name evaluated) :
    ∀ e ∈ s.story, e.report? = none := by
  rw [h.story, List.forall_mem_append, List.forall_mem_cons]
  exact ⟨h.earlier, rfl, report?_of_isEffort h.tallies.efforts⟩

theorem Tries.pauses (h : s.Tries d request f before es page name evaluated)
    (hflights : s.flights = 0) : s.Pauses :=
  ⟨hflights, h.quiet, h.dispositions⟩

/-- A dispatch one of whose chains is on its way is at work on nothing else. -/
theorem Reports.tries (h : (s.fly f).Reports i request pages) :
    s.flights = 0 ∧ ∃ d before es page name evaluated, d.id = i ∧ d.pages = pages ∧
      s.Tries d request f before es page name evaluated := by
  cases h with
  | quiet hflights hstory hd hrests => exact absurd hflights flights_fly_ne
  | failed hflights hstory hd hrests => exact absurd hflights flights_fly_ne
  | busy hflights hid hpages h =>
    obtain ⟨hnone, rfl⟩ := eq_of_add_singleton_eq hflights
    exact ⟨hnone, _, _, _, _, _, _, hid, hpages, { h with }⟩

end Tries

theorem Reports.once_if_failed (h : s.Reports i request pages) :
    (s.dispositions = [.failed] ∧ ∃ report, s.reports = [report]) ∨
    (.failed ∉ s.dispositions ∧ s.reports = []) := by
  cases h with
  | busy hflights hid hpages h =>
    exact .inr ⟨h.dispositions ▸ List.not_mem_nil, List.filterMap_eq_nil_iff.mpr h.quiet⟩
  | quiet hflights hstory hd hrests => exact .inr ⟨hd, List.filterMap_eq_nil_iff.mpr hstory⟩
  | failed hflights hstory hd hrests => exact .inl ⟨hd, _, hstory.reports_eq⟩

theorem Reports.closes {report : FailureReport} (h : s.Reports i request pages)
    (hmem : .reporting (some i) report ∈ s.story) : report.Closes i request pages s.story := by
  cases h with
  | busy hflights hid hpages h => cases h.quiet _ hmem
  | quiet hflights hstory hd hrests => cases hstory _ hmem
  | @failed other hflights hstory hd hrests =>
    have hother : report ∈ s.story.filterMap Event.report? :=
      List.mem_filterMap.mpr ⟨_, hmem, rfl⟩
    rw [hstory.reports_eq, List.mem_singleton] at hother
    exact hother ▸ hstory

theorem Reports.isInner_eq_false {before after : List Event} {nested : Bool}
    {summary : DispatchSummary} (h : s.Reports i request pages)
    (hevents : s.events = before ++ .finished i nested summary :: after) :
    ∀ e ∈ after, e.isInner = false := by
  cases h with
  | busy hflights hid hpages h =>
    exact (rests_of_dispositions h.dispositions).isInner_eq_false hevents
  | quiet hflights hstory hd hrests => exact hrests.isInner_eq_false hevents
  | failed hflights hstory hd hrests => exact hrests.isInner_eq_false hevents

/-- What an answer leaves in a strand, wherever the response is by then. -/
theorem leaves_answers (h : (Fate.answers d disposition r).Leaves closed s s') :
    s'.flights = s.flights ∧ s'.story = s.story ∧
      s'.dispositions = s.dispositions ++ [disposition] ∧ (s.dispositions = [] → s'.Rests) := by
  have happend : ∃ es, s'.flights = s.flights ∧ s'.events = s.events ++ es ∧
      es.filter Event.isInner = [] ∧ es.filterMap Event.disposition? = [disposition] := by
    cases h with
    | answers now hdelivers =>
      cases hdelivers with
      | later hr => exact ⟨_, rfl, rfl, rfl, rfl⟩
      | sent hr => exact ⟨_, rfl, List.append_assoc .., rfl, rfl⟩
      | withheld hr hc => exact ⟨_, rfl, List.append_assoc .., rfl, rfl⟩
  obtain ⟨es, hflights, hevents, hinner, hd⟩ := happend
  have hes : ∀ e ∈ es, e.isInner = false := by
    intro e he
    exact Bool.eq_false_of_not_eq_true (List.filter_eq_nil_iff.mp hinner e he)
  refine ⟨hflights, ?_, ?_, fun hnone => (rests_of_dispositions hnone).append hevents hes⟩
  . unfold story
    rw [hevents, List.filter_append, hinner, List.append_nil]
  . unfold dispositions
    rw [hevents, List.filterMap_append, hd]

theorem Pauses.answered (h : s.Pauses) (hd : disposition ≠ .failed)
    (hleaves : (Fate.answers d disposition r).Leaves closed s s') : s'.Reports i request pages := by
  have ⟨hflights, hstory, hdispositions, hrests⟩ := leaves_answers hleaves
  refine .quiet (hflights.trans h.flights) (hstory ▸ h.story) ?_ (hrests h.dispositions)
  rw [hdispositions, h.dispositions, List.nil_append, List.mem_singleton]
  exact hd.symm

theorem Pauses.abandoned (h : s.Pauses) (hleaves : (Fate.abandons d).Leaves closed s s') :
    s'.Reports i request pages := by
  cases hleaves with
  | abandons d now =>
    refine .quiet h.flights ?_ ?_ ?_
    . rw [story_note]
      simpa [Event.isInner] using h.story
    . rw [dispositions_note, h.dispositions]
      simp [Event.disposition?, Dispatch.summary]
    . exact (rests_of_dispositions h.dispositions).append rfl (by simp [Event.isInner])

/-- A report and an answer for a failure come together. -/
theorem Pauses.failed {report : FailureReport} (h : s.Pauses)
    (hcloses : report.Closes i request pages (s.story ++ es)) (hes : ∀ e ∈ es, e.isInner = true)
    (hleaves : (Fate.answers d .failed r).Leaves closed (s.note es) s') :
    s'.Reports i request pages := by
  have ⟨hflights, hstory, hdispositions, hrests⟩ := leaves_answers hleaves
  have hnone : (s.note es).dispositions = [] :=
    (dispositions_note_of_inner s hes).trans h.dispositions
  refine @Reports.failed _ _ _ _ report (hflights.trans h.flights) ?_ ?_ (hrests hnone)
  . rw [hstory, story_note_of_inner s hes]
    exact hcloses
  . rw [hdispositions, hnone]
    rfl

end Strand

section Building

variable {d : Dispatch} {page : Page} {chain chain' : HandlerChain}

theorem name_foldl_edit (edits : List ChainEdit) (chain : HandlerChain) :
    (edits.foldl .edit chain).name = chain.name := by
  induction edits generalizing chain with
  | nil => rfl
  | cons edit rest ih =>
    rw [List.foldl_cons, ih]
    cases edit <;> rfl

theorem name_of_decorating {context : Context} {decorators : List Decorator}
    (h : Dispatch.decorating context decorators chain = .ok (.ok chain')) :
    chain'.name = chain.name := by
  induction decorators generalizing chain with
  | nil =>
    injection h with h
    injection h with h
    rw [h]
  | cons decorator rest ih =>
    unfold Dispatch.decorating at h
    split at h
    . rw [ih h]
      apply name_foldl_edit
    . cases h
    . cases h

/-- Decorators do not rename what a page has built. -/
theorem builds_of_building {decorators : List Decorator} {request : Request}
    (hcontext : d.context = .forRequest request) (h : d.building decorators page = .ok chain) :
    page.Builds request chain.name := by
  unfold Dispatch.building Dispatch.constructing at h
  rw [hcontext] at h
  cases hbuilt : (page.build (.forRequest request)).result with
  | error payload =>
    rw [hbuilt] at h
    cases h
  | ok built =>
    rw [hbuilt] at h
    cases built with
    | error e => cases h
    | ok first =>
      refine ⟨first, hbuilt, ?_⟩
      dsimp only at h
      split at h
      . next result hdecorated =>
        rw [h] at hdecorated
        exact (name_of_decorating hdecorated).symm
      . cases h

end Building

namespace Machine

variable {m n : Machine} {i : Nat} {d : Dispatch} {request : Request} {page : Page}
  {pages : List Page} {job : Job}

theorem leaves_finishWith (disposition : Disposition) (r : Response) :
    (Fate.answers d disposition r).Leaves ((m.deliver d r).isOpen d.channel = false)
      (m.strand d.id) ((m.finishWith d disposition r).strand d.id) := by
  unfold finishWith
  rw [strand_finish]
  exact .answers _ (delivers_deliver r)

theorem leaves_finish (status : Option Status) (h : status = none) :
    (Fate.abandons d).Leaves True (m.strand d.id) ((m.finish d .abandoned status).strand d.id) := by
  rw [strand_finish, h]
  exact .abandons _ _

theorem exists_leaves_conclude (a : Answer) :
    ∃ closed r,
      (Fate.answers d (if a.record.kind = .failure then .failed else .answered) r).Leaves closed
        (m.strand d.id) ((m.conclude d a).strand d.id) := by
  unfold conclude
  cases a.fatal with
  | none => exact ⟨_, _, leaves_finishWith _ _⟩
  | some fatal =>
    dsimp only
    generalize hcall : m.settings.fallback.onError d.context.request fatal = c
    have hleaves := @leaves_finishWith (m.guarded d.outer c).1 d
      (if a.record.kind = .failure then .failed else .answered) (m.guarded d.outer c).2.closing
    rw [strand_guarded] at hleaves
    exact ⟨_, _, hleaves⟩

theorem reports_notFound (h : (m.strand d.id).Pauses) :
    ((m.notFound d).strand d.id).Reports d.id request d.pages := by
  unfold notFound
  split
  . have hleaves := @leaves_finishWith
      (m.guarded d.outer (m.settings.fallback.notFound d.context.request)).1
      { d with current := none } .notFound
      (m.guarded d.outer (m.settings.fallback.notFound d.context.request)).2
    dsimp only at hleaves
    rw [strand_guarded] at hleaves
    exact h.answered (by decide) hleaves
  . exact h.abandoned (leaves_finish none rfl)

theorem reports_conclude {a : Answer} (h : (m.strand d.id).Pauses)
    (ha : a.record.kind ≠ .failure) :
    ((m.conclude d a).strand d.id).Reports d.id request d.pages := by
  obtain ⟨closed, r, hleaves⟩ := @exists_leaves_conclude m d a
  rw [if_neg ha] at hleaves
  exact h.answered (by decide) hleaves

theorem reports_conclude_of_failure {a : Answer} {s : Strand} {es : List Event}
    {report : FailureReport} (h : s.Pauses) (ha : a.record.kind = .failure)
    (hs : m.strand d.id = s.note es) (hes : ∀ e ∈ es, e.isInner = true)
    (hcloses : report.Closes d.id request d.pages (s.story ++ es)) :
    ((m.conclude d a).strand d.id).Reports d.id request d.pages := by
  obtain ⟨closed, r, hleaves⟩ := @exists_leaves_conclude m d a
  rw [if_pos ha, hs] at hleaves
  exact h.failed hcloses hes hleaves

theorem reports_breakOff {s : Strand} (h : s.Pauses) (hcontext : d.context = .forRequest request)
    (hpage : page ∈ d.pages)
    (hs : m.strand d.id = s.note [.building d.id page.name]) (e : CauseChain) :
    ((m.breakOff d page.name e).strand d.id).Reports d.id request d.pages := by
  have hfail : m.failPage page.name d.context d.channel d.outer (.dispatch d) e
      = m.fail (d.start (.empty page.name)) "<page>" none (.pageBuild e) .empty := rfl
  unfold breakOff
  rw [hfail]
  cases hopen : m.isOpen d.channel with
  | false =>
    rw [fail_of_closed hopen]
    have hpauses : (m.strand d.id).Pauses := by
      rw [hs]
      exact h.note (by simp [Event.isInner]) (by simp [Event.report?])
    exact hpauses.abandoned (leaves_finish none rfl)
  | true =>
    rw [fail_of_open hopen]
    dsimp only
    generalize hreport : (d.start (.empty page.name)).report "<page>" none (.pageBuild e) = report
    have hcall : ((m.log (.reporting (some d.id) report)).call d.outer
        (m.settings.hook report)).1.strand d.id
          = s.note [.building d.id page.name, .reporting (some d.id) report] := by
      rw [strand_call, strand_log_of_eq rfl, hs, Strand.note_note]
      rfl
    refine @reports_conclude_of_failure _ _ _ _ _ _ report h rfl hcall (by simp [Event.isInner]) ?_
    refine @FailureReport.Closes.page _ _ _ _ _ _ e h.story hpage ?_
    rw [← hreport]
    unfold Run.report Dispatch.start Run.ofChain
    rw [hcontext]
    rfl

theorem reports_tryPage (h : (m.strand d.id).Pauses) (hcontext : d.context = .forRequest request)
    (hpage : page ∈ d.pages) : ((m.tryPage d page).strand d.id).Reports d.id request d.pages := by
  unfold tryPage
  dsimp only
  generalize hm : ({ m with metrics := m.metrics.recordPage } : Machine).log _ = next
  have hnext : next.strand d.id = (m.strand d.id).note [.building d.id page.name] := by
    rw [← hm]
    exact strand_log_of_eq rfl
  have hbuilt := @buildChain_snd next d page
  have hacts := @acts_buildChain next (fun _ => False) d page
  have hstrand := (hacts.strand_eq (i := d.id) id).trans hnext
  generalize next.buildChain d page = done at hbuilt hstrand
  obtain ⟨built, result⟩ := done
  dsimp only at hbuilt hstrand ⊢
  cases result with
  | error e => exact reports_breakOff h hcontext hpage hstrand e
  | ok chain =>
    have hsubmit : (built.submit (.step (d.start chain))).strand d.id
        = ((m.strand d.id).note [.building d.id page.name]).fly
            (.queued (.step (d.start chain))) := by
      rw [strand_submit_of_eq rfl, hstrand]
    have hinner : ∀ e ∈ [Event.building d.id page.name], e.isInner = true := by
      simp [Event.isInner]
    rw [hsubmit]
    refine .busy (f := .queued (.step (d.start chain))) ?_ rfl rfl {
      owner := rfl
      context := hcontext
      story := Strand.story_note_of_inner _ hinner
      earlier := h.story
      listed := hpage
      builds := builds_of_building hcontext hbuilt.symm
      tallies := tallies_nil 0
      reached := .step rfl rfl
      dispositions := (Strand.dispositions_note_of_inner _ hinner).trans h.dispositions }
    dsimp only [Strand.fly, Strand.note]
    rw [h.flights, zero_add]

theorem reports_advance (h : (m.strand d.id).Pauses) (hcontext : d.context = .forRequest request) :
    ((m.advance d).strand d.id).Reports d.id request d.pages := by
  unfold advance
  split
  . exact reports_notFound h
  . next page hsome =>
    exact @reports_tryPage m (d.trying page) request page h hcontext (List.mem_of_getElem? hsome)

theorem reports_complete {result : ChainResult} (h : (m.strand d.id).Pauses)
    (hcontext : d.context = .forRequest request)
    (ha : ∀ a, result = .answered a → a.record.kind ≠ .failure) :
    ((m.complete (.dispatch d) result).strand d.id).Reports d.id request d.pages := by
  cases result with
  | answered a => exact reports_conclude h (ha a rfl)
  | abandoned evaluated => exact h.abandoned (leaves_finish none rfl)
  | rejected evaluated rejecter =>
    have hlog : (m.log (.rejected d.id d.tried)).strand d.id
        = (m.strand d.id).note [.rejected d.id d.tried] := strand_log_of_eq rfl
    refine reports_advance (m := m.log (.rejected d.id d.tried)) ?_ hcontext
    rw [hlog]
    exact h.note (by simp [Event.isInner]) (by simp [Event.report?])

theorem strand_proceed_of_some {owner : Owner} {evaluated : Nat} {p : Progress} {f : Flight}
    (hf : p.flight? = some f) (hown : f.run.owner.id? = some i) :
    (m.proceed owner evaluated p).1.strand i = (m.strand i).fly f := by
  cases p with
  | continues later =>
    injection hf with hf
    rw [← hf] at hown ⊢
    have hjob : (Job.step later).run.owner.id? = some i := hown
    exact strand_submit_of_eq hjob
  | suspended s plan =>
    injection hf with hf
    rw [← hf] at hown ⊢
    rw [Suspension.flight_run] at hown
    exact strand_suspend hown plan
  | ended result => cases hf
  | escaped => cases hf

theorem reports_proceed {p : Progress} {evaluated : Nat} (h : (m.strand d.id).Pauses)
    (hcontext : d.context = .forRequest request) (hf : p.flight? = none)
    (ha : ∀ a, p = .ended (.answered a) → a.record.kind ≠ .failure) :
    ((m.proceed (.dispatch d) evaluated p).1.strand d.id).Reports d.id request d.pages := by
  cases p with
  | continues later => cases hf
  | suspended s plan => cases hf
  | ended result =>
    refine reports_complete h hcontext ?_
    intro a heq
    exact ha a (by rw [heq])
  | escaped =>
    have hlog : (m.log (.escaped (some d.id))).strand d.id
        = (m.strand d.id).note [.escaped (some d.id)] := strand_log_of_eq rfl
    refine reports_complete (m := m.log (.escaped (some d.id))) ?_ hcontext (by simp)
    rw [hlog]
    exact h.note (by simp [Event.isInner]) (by simp [Event.report?])

theorem flight?_owner {run : Run} {p : Progress} {f : Flight} (hp : p.Of run)
    (hf : p.flight? = some f) : f.run.owner = run.owner := by
  cases p with
  | continues later =>
    cases hf
    exact hp.owner
  | suspended s plan =>
    cases hf
    rw [Suspension.flight_run]
    exact hp.precedes.owner
  | ended result => cases hf
  | escaped => cases hf

section Work

variable {before es : List Event} {name : String} {evaluated : Nat}

/-- The job of a dispatch that tries a page, and everything that comes of it at once. -/
theorem reports_work (hk : m.Knows job.run) (hflights : (m.strand d.id).flights = 0)
    (h : (m.strand d.id).Tries d request (.queued job) before es page name evaluated) :
    ((m.work job).1.strand d.id).Reports d.id request d.pages := by
  have howner : job.run.owner = .dispatch d := h.owner
  have hid : job.run.owner.id? = some d.id := by rw [howner]; rfl
  have hpauses := h.pauses hflights
  have hturn := strand_turn hk hid
  have hprogress := (does_turn hk).progress
  have hof := keeps_progress_of (keeps_turn hk)
  have hmoves := @seeing_moves m.settings evaluated job name h.reached (m.glance job)
  rw [hid] at hmoves
  unfold work
  rw [howner]
  dsimp only
  generalize m.turn job = done at hturn hprogress hof
  generalize job.seeing m.settings (m.glance job) = f at hturn hprogress hmoves
  obtain ⟨turned, p⟩ := done
  dsimp only at hturn hprogress hof ⊢
  subst hprogress
  cases hmoves with
  | @goes efforts p f after hefforts hf hat =>
    have hinner := isInner_of_isOfRun (isOfRun_of_isEffort hefforts.efforts)
    have hown := (flight?_owner hof hf).trans howner
    have hproceed : (turned.proceed (.dispatch d) job.evaluated p).1.strand d.id
        = (turned.strand d.id).fly f :=
      strand_proceed_of_some hf (by rw [hown]; rfl)
    have hstory := Strand.story_note_of_inner (m.strand d.id) hinner
    rw [h.story, List.append_assoc, List.cons_append] at hstory
    rw [hproceed, hturn]
    refine .busy (f := f) ?_ rfl rfl { h with
      owner := hown
      story := hstory
      tallies := h.tallies.append hefforts
      reached := hat
      dispositions := (Strand.dispositions_note_of_inner _ hinner).trans h.dispositions }
    dsimp only [Strand.fly, Strand.note]
    rw [hflights, zero_add]
  | @ends efforts p hefforts hf ha =>
    refine reports_proceed ?_ h.context hf ha
    rw [hturn]
    exact hpauses.note (isInner_of_isOfRun (isOfRun_of_isEffort hefforts))
      (report?_of_isEffort hefforts)
  | @fails efforts report a after hefforts hreport hrecord ha =>
    have hinner : ∀ e ∈ efforts ++ [.reporting (some d.id) report], e.isInner = true := by
      rw [List.forall_mem_append]
      exact ⟨isInner_of_isOfRun (isOfRun_of_isEffort hefforts.efforts), by simp [Event.isInner]⟩
    refine @reports_conclude_of_failure _ _ _ _ _ _ report hpauses ha hturn hinner ?_
    rw [h.story, List.append_assoc, List.cons_append, ← List.append_assoc es]
    exact .run h.earlier h.listed h.builds (h.tallies.append hefforts) hreport

end Work

theorem Owns.reports (h : m.Owns i n) (hm : m.Sane) (hr : (m.strand i).Reports i request pages) :
    (n.strand i).Reports i request pages := by
  cases h with
  | @works job started hstart hown =>
    rw [strand_startJob?_of_eq hstart hown] at hr
    rw [(sameWork_endJob _).strand_eq]
    obtain ⟨hflights, d, before, es, page, name, evaluated, rfl, rfl, htries⟩ := hr.tries
    exact reports_work ((hm.startJob? hstart).knows (hm.fits_startJob? hstart)) hflights htries
  | @wakes waited s closes outer r hsettings hwires hown hs =>
    have hresume : (Job.resume s r).run.owner.id? = some i := hown
    have hsubmit : ((if closes then waited.close outer else waited).submit (.resume s r)).strand i
        = (waited.strand i).fly (.queued (.resume s r)) := by
      rw [← (@acts_closing waited closes outer).strand_eq (i := i) id]
      exact strand_submit_of_eq hresume
    rw [hs] at hr
    rw [hsubmit]
    obtain ⟨hflights, d, before, es, page, name, evaluated, hid, hpages, htries⟩ := hr.tries
    have hreached : (Flight.queued (.resume s r)).At name evaluated := by
      cases htries.reached with
      | parked hname h hposition => exact .resume hname h hposition
    refine .busy (f := .queued (.resume s r)) ?_ hid hpages { htries with reached := hreached }
    dsimp only [Strand.fly]
    rw [hflights, zero_add]
  | @delivers waited channel outer r hsettings hwires hs =>
    rw [hs] at hr
    cases hopen : waited.isOpen channel with
    | true =>
      rw [strand_sendNow_of_open hopen]
      exact hr.append rfl rfl (by simp [Event.isInner]) (by simp [Event.disposition?])
    | false =>
      rw [sendNow_of_closed hopen, strand_log_of_eq rfl]
      exact hr.append rfl rfl (by simp [Event.isInner]) (by simp [Event.disposition?])

theorem reports_dispatch (hm : m.Sane) {channel outer : ChannelId} {nested : Bool} :
    ((m.dispatch request channel outer nested).strand m.dispatches).Reports m.dispatches request
      m.pages := by
  unfold dispatch
  dsimp only
  generalize hd : m.newDispatch request channel outer nested = d
  have hid : m.dispatches = d.id := by rw [← hd]; rfl
  have hcontext : d.context = .forRequest request := by rw [← hd]; rfl
  have hpages : m.pages = d.pages := by rw [← hd]; rfl
  have hreceive : (m.receive d).strand d.id
      = (m.strand d.id).note [.received d.id d.channel d.context.request] := strand_log_of_eq rfl
  have hpauses : ((m.receive d).tryAdmit.2.strand d.id).Pauses := by
    rw [sameWork_tryAdmit.strand_eq, hreceive, ← hid, hm.fresh m.dispatches (Nat.le_refl _)]
    exact ⟨rfl, by simp [Strand.story, Strand.note, Strand.empty, Event.isInner], rfl⟩
  rw [hid, hpages]
  generalize (m.receive d).tryAdmit = done at hpauses
  obtain ⟨admitted, next⟩ := done
  cases admitted with
  | true => exact reports_advance hpauses hcontext
  | false =>
    dsimp only [shed]
    generalize next.settings.fallback.overloaded d.context.request = c
    have hleaves := @leaves_finishWith (next.guarded d.outer c).1 d .shed
      (next.guarded d.outer c).2
    rw [strand_guarded] at hleaves
    exact hpauses.answered (by decide) hleaves

/-- Whether a dispatch that has arrived reports what it should. -/
def Attends (m : Machine) (i : Nat) : Prop :=
  ∃ channel request pages, .received i channel request ∈ m.journal ∧
    (m.strand i).Reports i request pages

theorem Begets.attends (h : m.Begets n i) : n.Attends i := by
  cases h with
  | @intro b channel outer request nested hb hg hi hc hs hg' =>
    subst hi
    refine ⟨channel, request, b.pages, mem_journal_of_mem_strand (i := b.dispatches) ?_, ?_⟩
    . rw [hs]
      exact received_mem_dispatch
    . rw [hs]
      exact reports_dispatch hb

theorem Stirs.attends (h : m.Stirs n) (hm : m.Sane) (hall : ∀ i, i < m.dispatches → m.Attends i)
    (hi : i < n.dispatches) : n.Attends i := by
  obtain hstep | ⟨id, wire, hw, rfl⟩ := h.cases
  . cases Nat.lt_or_ge i m.dispatches with
    | inr hnew => exact (hstep.rears hm i hnew hi).attends
    | inl hold =>
      obtain ⟨channel, request, pages, hreceived, hr⟩ := hall i hold
      refine ⟨channel, request, pages, (hstep.sane hm).2.journal.subset hreceived, ?_⟩
      cases Classical.em (n.strand i = m.strand i) with
      | inl heq => exact heq ▸ hr
      | inr hne => exact (hstep.owns hm hold hne).reports hm hr
  . exact hall i hi

variable {settings : Settings} {started : Machine} {a : Answer}

theorem Stirred.attends (h : Stirred settings m) (hi : i < m.dispatches) : m.Attends i := by
  induction h generalizing i with
  | new pages decorators => exact absurd hi (Nat.not_lt_zero i)
  | next hbefore hnext ih => exact hnext.attends hbefore.sane (fun _ => ih) hi

theorem reports_eq : m.reports i = (m.strand i).reports := by
  unfold reports Strand.reports
  rw [story_eq]
  rfl

/-- How a dispatch was finished, oldest first. -/
def dispositions (m : Machine) (i : Nat) : List Disposition :=
  (m.journal.filter fun e => e.dispatch? = some i).filterMap Event.disposition?

/-- A run that is answered was told about once if the answer is one for a failure. -/
theorem reports_turn (hm : m.Sane) (hr : (m.strand i).Reports i request pages)
    (hstart : m.startJob? = some (job, started)) (hown : job.run.owner.id? = some i)
    (ha : (started.turn job).2 = .ended (.answered a)) :
    (a.record.kind = .failure → ∃ d report, job.run.owner = .dispatch d ∧
      (started.turn job).1.reports i = [report] ∧ report.Matches a.record ∧
      report.Closes i d.context.request d.pages ((started.turn job).1.story i)) ∧
    (a.record.kind ≠ .failure → (started.turn job).1.reports i = []) := by
  have hk := (hm.startJob? hstart).knows (hm.fits_startJob? hstart)
  rw [strand_startJob?_of_eq hstart hown] at hr
  obtain ⟨-, d, before, es, page, name, evaluated, rfl, rfl, htries⟩ := hr.tries
  have hmoves := @seeing_moves started.settings evaluated job name htries.reached
    (started.glance job)
  have hturn := strand_turn hk hown
  have hprogress := (does_turn hk).progress
  rw [ha] at hprogress
  have hquiet : (started.strand d.id).reports = [] := List.filterMap_eq_nil_iff.mpr htries.quiet
  generalize job.seeing started.settings (started.glance job) = f at hturn hprogress hmoves
  have hreports : (started.turn job).1.reports d.id
      = (f.events.filter Event.isInner).filterMap Event.report? := by
    rw [reports_eq, hturn, Strand.reports_note, hquiet, List.nil_append]
  have hended : (started.turn job).1.story d.id
      = (started.strand d.id).story ++ f.events.filter Event.isInner := by
    rw [← Strand.story_note, ← hturn]
    exact story_eq
  rw [hreports, hended]
  cases hmoves with
  | goes hefforts hf hat =>
    subst hprogress
    cases hf
  | @ends efforts p hefforts hf hkind =>
    exact ⟨fun heq => absurd heq (hkind a hprogress.symm), fun _ => reports_of_isEffort hefforts⟩
  | @fails efforts report b after hefforts hblames hmatches hkind =>
    injection hprogress with hprogress
    injection hprogress with heq
    subst heq
    refine ⟨fun _ => ⟨d, report, htries.owner, ?_, hmatches, ?_⟩, fun hne => absurd hkind hne⟩
    . rw [List.filter_append, List.filterMap_append, reports_of_isEffort hefforts.efforts]
      rfl
    . have hinner := isInner_of_isOfRun (isOfRun_of_isEffort hefforts.efforts)
      rw [List.filter_append, List.filter_eq_self.mpr hinner, htries.story, htries.context, hown,
        List.append_assoc, List.cons_append, ← List.append_assoc es]
      exact .run htries.earlier htries.listed htries.builds (htries.tallies.append hefforts) hblames

theorem mem_story_of_reporting {report : FailureReport}
    (h : .reporting (some i) report ∈ m.journal) :
    .reporting (some i) report ∈ (m.strand i).story := by
  apply List.mem_filter.mpr
  exact ⟨mem_strand_of_mem_journal h rfl, rfl⟩

theorem reports_failPage {page : String} {context : Context} {channel outer : ChannelId}
    {owner : Owner} {e : CauseChain}
    (h : m.failPage page context channel outer owner e = (n, some a)) :
    a.record.kind = .failure ∧
    ∃ report, n.told owner.id? = m.told owner.id? ++ [.reporting owner.id? report] ∧
      report.Matches a.record ∧ report.page = page ∧ report.position = none := by
  unfold failPage at h
  generalize hrun : Run.ofChain (.empty page) context channel outer owner = run at h
  cases hopen : m.isOpen run.channel with
  | false =>
    rw [fail_of_closed hopen] at h
    cases h
  | true =>
    rw [fail_of_open hopen] at h
    subst hrun
    injection h with hn ha
    injection ha with ha
    subst hn ha
    refine ⟨rfl, Run.report (.ofChain (.empty page) context channel outer owner) "<page>" none
      (.pageBuild e), ?_, ⟨rfl, rfl, rfl⟩, rfl, rfl⟩
    rw [told_call]
    exact told_log_of_eq (decide_eq_true rfl)

section Ending

variable {failure : UnitFailure} {own : Accumulator} {e : CauseChain}

theorem finished_finish (disposition : Disposition) (status : Option Status) :
    (m.finish d disposition status).Finished d.id :=
  ⟨_, _, List.mem_append_right _ List.mem_cons_self⟩

theorem finished_conclude (a : Answer) : (m.conclude d a).Finished d.id := by
  unfold conclude
  dsimp only
  split
  . exact finished_finish _ _
  . exact finished_finish _ _

/-- A page that cannot be built is the last one of its dispatch. -/
theorem finished_tryPage (h : d.building m.decorators page = .error e) :
    (m.tryPage d page).Finished d.id := by
  unfold tryPage
  dsimp only
  generalize hm : ({ m with metrics := m.metrics.recordPage } : Machine).log _ = next
  have hbuilt : (next.buildChain d page).2 = .error e := by
    rw [buildChain_snd, ← h, ← hm]
    rfl
  generalize next.buildChain d page = done at hbuilt
  obtain ⟨built, result⟩ := done
  subst hbuilt
  dsimp only
  unfold breakOff
  split
  . exact finished_conclude _
  . exact finished_finish _ _

/-- A job that fails is the last one of its dispatch. -/
theorem finished_work (hm : m.Sane) (hstart : m.startJob? = some (job, started))
    (hown : job.run.owner.id? = some i) (h : job.FailsWith started.settings failure own) :
    (started.work job).1.Finished i := by
  have hcomes : job.ComesTo started.settings (started.turn job).2 :=
    ⟨started, rfl, hm.startJob? hstart, hm.fits_startJob? hstart, rfl⟩
  obtain ⟨d, howner, rfl⟩ : ∃ d, job.run.owner = .dispatch d ∧ d.id = i := by
    cases howner : job.run.owner with
    | caller =>
      rw [howner] at hown
      cases hown
    | dispatch d =>
      rw [howner] at hown
      exact ⟨d, rfl, Option.some.inj hown⟩
  unfold work
  rw [howner]
  dsimp only
  cases Job.comesTo_cases hcomes with
  | inl hforetold =>
    obtain ⟨base, unit, position, hforecast⟩ := Job.forecast_of_failsWith h
    rw [hforetold, hforecast]
    exact finished_conclude _
  | inr habandoned =>
    obtain ⟨evaluated, heq⟩ := habandoned
    rw [heq]
    exact finished_finish _ _

end Ending

theorem Attends.not_building {before after : List Event} {nested : Bool} {summary : DispatchSummary}
    (h : m.Attends i) (hj : m.journal = before ++ .finished i nested summary :: after)
    (name : String) : .building i name ∉ after := by
  intro hmem
  obtain ⟨channel, request, pages, -, hr⟩ := h
  have hevents : (m.strand i).events = before.filter (fun e => e.dispatch? = some i) ++
      .finished i nested summary :: after.filter fun e => e.dispatch? = some i := by
    have hown : decide ((Event.finished i nested summary).dispatch? = some i) = true :=
      decide_eq_true rfl
    change m.journal.filter _ = _
    rw [hj, List.filter_append,
      List.filter_cons_of_pos (p := fun e : Event => e.dispatch? = some i) hown]
  cases hr.isInner_eq_false hevents (.building i name)
    (List.mem_filter.mpr ⟨hmem, decide_eq_true rfl⟩)

/--
The hook is told about a dispatch once if the dispatch fails, and not at all otherwise. The report
says what the record of the answer says, and it is the last thing that happens to the pages. Whether
it is reported or not, a failure ends its dispatch, and a dispatch that has ended tries no page.
-/
theorem Stirred.reports_once_if_failed (h : Stirred settings m) :
    (∀ i, i < m.dispatches →
      (m.dispositions i = [.failed] ∧ ∃ report, m.reports i = [report]) ∨
      (.failed ∉ m.dispositions i ∧ m.reports i = [])) ∧
    (∀ i report, .reporting (some i) report ∈ m.journal →
      ∃ channel request pages, .received i channel request ∈ m.journal ∧
        report.Closes i request pages (m.story i) ∧
        (report.position = none ↔ report.failure.isNobodys = true)) ∧
    (∀ i job started a, m.startJob? = some (job, started) → job.run.owner.id? = some i →
      (started.turn job).2 = .ended (.answered a) →
      (a.record.kind = .failure → ∃ d report, job.run.owner = .dispatch d ∧
        (started.turn job).1.reports i = [report] ∧ report.Matches a.record ∧
        report.Closes i d.context.request d.pages ((started.turn job).1.story i)) ∧
      (a.record.kind ≠ .failure → (started.turn job).1.reports i = [])) ∧
    (∀ (before after : Machine) page context channel outer owner e a,
      before.failPage page context channel outer owner e = (after, some a) →
      a.record.kind = .failure ∧
      ∃ report, after.told owner.id? = before.told owner.id? ++ [.reporting owner.id? report] ∧
        report.Matches a.record ∧ report.page = page ∧ report.position = none) ∧
    (∀ i job started failure own, m.startJob? = some (job, started) →
      job.run.owner.id? = some i → job.FailsWith started.settings failure own →
        (started.work job).1.Finished i) ∧
    (∀ (before : Machine) d page e, d.building before.decorators page = .error e →
      (before.tryPage d page).Finished d.id) ∧
    (∀ i before nested summary after, m.journal = before ++ .finished i nested summary :: after →
      ∀ name, .building i name ∉ after) := by
  refine ⟨?_, ?_, ?_, ?_, ?_, ?_, ?_⟩
  . intro i hi
    obtain ⟨channel, request, pages, -, hr⟩ := h.attends hi
    rw [reports_eq]
    exact hr.once_if_failed
  . intro i report hmem
    obtain ⟨channel, request, pages, hreceived, hr⟩ :=
      h.attends (h.sane.fresh.lt_of_mem_journal hmem rfl)
    have hcloses := hr.closes (mem_story_of_reporting hmem)
    exact ⟨channel, request, pages, hreceived, story_eq ▸ hcloses, hcloses.position_eq_none_iff⟩
  . intro i job started a hstart hown ha
    have hlt := (h.sane.fits_startJob? hstart).id_lt hown
    obtain ⟨rest, -, heq⟩ := startJob?_eq_some hstart
    rw [heq] at hlt
    obtain ⟨channel, request, pages, -, hr⟩ := h.attends hlt
    exact reports_turn h.sane hr hstart hown ha
  . intro before after page context channel outer owner e a hfail
    exact reports_failPage hfail
  . intro i job started failure own hstart hown hfails
    exact finished_work h.sane hstart hown hfails
  . intro before d page e hbroken
    exact finished_tryPage hbroken
  . intro i before nested summary after hj
    have hmem : .finished i nested summary ∈ m.journal := by
      rw [hj]
      exact List.mem_append_right _ List.mem_cons_self
    exact (h.attends (h.sane.fresh.lt_of_mem_journal hmem rfl)).not_building hj

/-- A page whose second unit fails. -/
def brittlePage : Page where
  name := "Brittle"
  build _ := .pure (.ok ⟨"Brittle", [
    .unit ⟨.ok "Hold", fun _ => .decide (.consumed [] false)⟩,
    .unit ⟨.ok "Break", fun _ => ⟨[], .empty, [], .failed (.of "broken")⟩⟩]⟩)

def broken : Machine :=
  ((single .plain [brittlePage]).dispatch (.new .zero .get "/") 0 0 false).settle 8

theorem reports_of_broken :
    Stirred .plain broken ∧ broken.dispositions 0 = [.failed] ∧
      ∃ report, broken.reports 0 = [report] := by
  have hbroken : Stirred .plain broken :=
    (reachable_single .plain [brittlePage]).stirred.reaches
      ((Relation.ReflTransGen.single (.dispatch _ Nat.zero_lt_one)).trans (reaches_settle _ 8))
  obtain hfailed | ⟨hnot, -⟩ := (Stirred.reports_once_if_failed hbroken).1 0 (by decide)
  . exact ⟨hbroken, hfailed⟩
  . have hdispositions : broken.dispositions 0 = [.failed] := rfl
    rw [hdispositions] at hnot
    exact absurd List.mem_cons_self hnot

end Machine
end PageDispatch
