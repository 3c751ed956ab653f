import Mathlib.Algebra.BigOperators.Group.List.Basic
import Mathlib.Algebra.GroupWithZero.Nat
import PageDispatch.Proofs.Dispatch.Reports

/-!
This module contains the counts of one dispatch: it was received once, it says how many pages it has
tried, and its summary tells the same.
-/

namespace PageDispatch

namespace Event

def requestCount : Event → Nat
  | received _ _ _ => 1
  | _ => 0

def pageCount : Event → Nat
  | building _ _ => 1
  | _ => 0

def summary? : Event → Option DispatchSummary
  | finished _ _ summary => some summary
  | _ => none

/-- Whether a counter takes in an event. -/
def isCounted : Event → Bool
  | received _ _ _ | building _ _ | finished _ _ _ => true
  | _ => false

end Event

section Counted

variable {e : Event}

theorem isCounted_of_isOfRun (h : e.isOfRun = true) : e.isCounted = false := by
  cases e <;> first | rfl | cases h

theorem requestCount_of_isCounted (h : e.isCounted = false) : e.requestCount = 0 := by
  cases e <;> first | rfl | cases h

theorem pageCount_of_isCounted (h : e.isCounted = false) : e.pageCount = 0 := by
  cases e <;> first | rfl | cases h

theorem summary?_of_isCounted (h : e.isCounted = false) : e.summary? = none := by
  cases e <;> first | rfl | cases h

end Counted

namespace Strand

def total (weight : Event → Nat) (s : Strand) : Nat := (s.events.map weight).sum

def summaries (s : Strand) : List DispatchSummary := s.events.filterMap Event.summary?

/-- Whether a dispatch that has not ended has tried as many pages as it says. -/
structure Counts (s : Strand) (d : Dispatch) : Prop where
  requests : s.total Event.requestCount = 1
  pages : s.total Event.pageCount = d.tried
  bound : d.tried ≤ d.pages.length
  summaries : s.summaries = []

/-- A dispatch that began with certain pages is on its way or has ended, with the right counts. -/
inductive Balances (pages : List Page) (s : Strand) : Prop
  | busy {f : Flight} {d : Dispatch} (hflights : s.flights = {f})
    (howner : f.run.owner = .dispatch d) (hpages : d.pages = pages) (h : s.Counts d)
  | ended {summary : DispatchSummary} (hflights : s.flights = 0)
    (hrequests : s.total Event.requestCount = 1)
    (htried : s.total Event.pageCount = summary.pagesTried) (hsummaries : s.summaries = [summary])
    (hnotFound : summary.disposition = .notFound → summary.pagesTried = pages.length)
    (hshed : summary.disposition = .shed → summary.pagesTried = 0)

variable {s s' : Strand} {es : List Event} {d : Dispatch} {disposition : Disposition} {r : Response}
  {closed : Prop} {pages : List Page} {weight : Event → Nat}

theorem total_append (es : List Event) (hevents : s'.events = s.events ++ es) :
    s'.total weight = s.total weight + (es.map weight).sum := by
  unfold total
  rw [hevents, List.map_append, List.sum_append]

theorem total_append_of_zero (hevents : s'.events = s.events ++ es)
    (hes : ∀ e ∈ es, weight e = 0) : s'.total weight = s.total weight := by
  have hzero : (es.map weight).sum = 0 := by
    apply List.sum_eq_zero
    simpa using hes
  rw [total_append es hevents, hzero, Nat.add_zero]

theorem summaries_append (es : List Event) (hevents : s'.events = s.events ++ es) :
    s'.summaries = s.summaries ++ es.filterMap Event.summary? := by
  unfold summaries
  rw [hevents, List.filterMap_append]

theorem summaries_append_of_none (hevents : s'.events = s.events ++ es)
    (hes : ∀ e ∈ es, e.isCounted = false) : s'.summaries = s.summaries := by
  have hnone : es.filterMap Event.summary? = [] := by
    rw [List.filterMap_eq_nil_iff]
    intro e he
    exact summary?_of_isCounted (hes e he)
  rw [summaries_append es hevents, hnone, List.append_nil]

theorem Counts.append (h : s.Counts d) (hevents : s'.events = s.events ++ es)
    (hes : ∀ e ∈ es, e.isCounted = false) : s'.Counts d where
  requests := by
    rw [total_append_of_zero hevents fun e he => requestCount_of_isCounted (hes e he)]
    exact h.requests
  pages := by
    rw [total_append_of_zero hevents fun e he => pageCount_of_isCounted (hes e he)]
    exact h.pages
  bound := h.bound
  summaries := (summaries_append_of_none hevents hes).trans h.summaries

theorem Counts.trying {page : Page} (h : s.Counts d) (hpage : d.pages[d.tried]? = some page) :
    (s.note [.building d.id page.name]).Counts (d.trying page) where
  requests := (total_append [.building d.id page.name] rfl).trans h.requests
  pages := by
    rw [total_append [.building d.id page.name] rfl, h.pages]
    rfl
  bound := (List.getElem?_eq_some_iff.mp hpage).1
  summaries := by
    rw [summaries_append [.building d.id page.name] rfl, h.summaries]
    rfl

/-- The summary of a dispatch tells how many pages it tried. -/
theorem Counts.finished (h : s.Counts d) (es : List Event) (hflights : s'.flights = 0)
    {nested : Bool} {now : Nat} {status : Option Status}
    (hevents : s'.events
      = s.events ++ (es ++ [.finished d.id nested (d.summary now disposition status)]))
    (hes : ∀ e ∈ es, e.isCounted = false)
    (hnotFound : disposition = .notFound → d.tried = d.pages.length)
    (hshed : disposition = .shed → d.tried = 0) : s'.Balances d.pages := by
  have hcounts : (s.note es).Counts d := h.append rfl hes
  rw [← List.append_assoc] at hevents
  refine @Balances.ended _ _ (d.summary now disposition status) hflights ?_ ?_ ?_ hnotFound hshed
  . rw [total_append (s := s.note es) _ hevents]
    exact hcounts.requests
  . rw [total_append (s := s.note es) _ hevents]
    exact hcounts.pages
  . rw [summaries_append (s := s.note es) _ hevents, hcounts.summaries]
    rfl

theorem Counts.answered (h : s.Counts d) (hidle : s.flights = 0)
    (hleaves : (Fate.answers d disposition r).Leaves closed s s')
    (hnotFound : disposition = .notFound → d.tried = d.pages.length)
    (hshed : disposition = .shed → d.tried = 0) : s'.Balances d.pages := by
  cases hleaves with
  | answers now hdelivers =>
    cases hdelivers with
    | later hr => exact h.finished [] hidle rfl (List.forall_mem_nil _) hnotFound hshed
    | sent hr =>
      refine h.finished [.sending d.id d.channel r] hidle (List.append_assoc ..) ?_
        hnotFound hshed
      simp [Event.isCounted]
    | withheld hr hc =>
      refine h.finished [.withheld d.id d.channel r] hidle (List.append_assoc ..) ?_
        hnotFound hshed
      simp [Event.isCounted]

theorem Balances.append (h : s.Balances pages) (hflights : s'.flights = s.flights)
    (hevents : s'.events = s.events ++ es) (hes : ∀ e ∈ es, e.isCounted = false) :
    s'.Balances pages := by
  cases h with
  | busy hbusy howner hpages h =>
    exact .busy (hflights.trans hbusy) howner hpages (h.append hevents hes)
  | ended hidle hrequests htried hsummaries hnotFound hshed =>
    refine .ended (hflights.trans hidle) ?_ ?_ ?_ hnotFound hshed
    . rw [total_append_of_zero hevents fun e he => requestCount_of_isCounted (hes e he)]
      exact hrequests
    . rw [total_append_of_zero hevents fun e he => pageCount_of_isCounted (hes e he)]
      exact htried
    . exact (summaries_append_of_none hevents hes).trans hsummaries

/-- A dispatch with a flight is on its way, and nowhere else. -/
theorem Balances.of_fly {f : Flight} (h : (s.fly f).Balances pages) :
    s.flights = 0 ∧ ∃ d, f.run.owner = .dispatch d ∧ d.pages = pages ∧ s.Counts d := by
  cases h with
  | ended hflights hrequests htried hsummaries hnotFound hshed =>
    exact absurd hflights flights_fly_ne
  | @busy g d hflights howner hpages h =>
    obtain ⟨hidle, rfl⟩ := eq_of_add_singleton_eq hflights
    exact ⟨hidle, d, howner, hpages, ⟨h.requests, h.pages, h.bound, h.summaries⟩⟩

theorem Counts.fly {f : Flight} (h : s.Counts d) (hidle : s.flights = 0)
    (howner : f.run.owner = .dispatch d) : (s.fly f).Balances d.pages := by
  refine .busy (f := f) ?_ howner rfl ⟨h.requests, h.pages, h.bound, h.summaries⟩
  dsimp only [Strand.fly]
  rw [hidle, zero_add]

end Strand

namespace Machine

variable {m n : Machine} {i : Nat} {d : Dispatch} {page : Page} {pages : List Page} {job : Job}

section Pages

theorem balances_abandoned (hidle : (m.strand d.id).flights = 0) (h : (m.strand d.id).Counts d) :
    ((m.finish d .abandoned none).strand d.id).Balances d.pages := by
  rw [strand_finish]
  exact h.finished [] hidle rfl (List.forall_mem_nil _) nofun nofun

theorem balances_notFound (hidle : (m.strand d.id).flights = 0) (h : (m.strand d.id).Counts d)
    (hnone : d.pages[d.tried]? = none) : ((m.notFound d).strand d.id).Balances d.pages := by
  unfold notFound
  split
  . have hleaves := @leaves_finishWith
      (m.guarded d.outer (m.settings.fallback.notFound d.context.request)).1
      { d with current := none } .notFound
      (m.guarded d.outer (m.settings.fallback.notFound d.context.request)).2
    dsimp only at hleaves
    rw [strand_guarded] at hleaves
    have hall : d.tried = d.pages.length :=
      Nat.le_antisymm h.bound (List.getElem?_eq_none_iff.mp hnone)
    exact Strand.Counts.answered (d := { d with current := none }) { h with } hidle hleaves
      (fun _ => hall) nofun
  . exact balances_abandoned hidle h

theorem balances_conclude (hidle : (m.strand d.id).flights = 0) (h : (m.strand d.id).Counts d)
    (a : Answer) : ((m.conclude d a).strand d.id).Balances d.pages := by
  obtain ⟨closed, r, hleaves⟩ := @exists_leaves_conclude m d a
  refine h.answered hidle hleaves ?_ ?_
  . split <;> exact nofun
  . split <;> exact nofun

theorem exists_strand_fail (i : Nat) (run : Run) (unit : String) (position : Option Nat)
    (failure : UnitFailure) (own : Accumulator) :
    ∃ es, (m.fail run unit position failure own).1.strand i = (m.strand i).note es ∧
      ∀ e ∈ es, e.isCounted = false := by
  rw [fail_fst]
  split
  . rw [strand_call]
    cases Decidable.em (run.owner.id? = some i) with
    | inl hown => exact ⟨_, strand_log_of_eq hown, by simp [Event.isCounted]⟩
    | inr hother =>
      have hnone : (Event.reporting run.owner.id? (run.report unit position failure)).dispatch?
          ≠ some i := hother
      rw [strand_log_of_ne hnone]
      exact ⟨[], (Strand.note_nil _).symm, List.forall_mem_nil _⟩
  . exact ⟨[], (Strand.note_nil _).symm, List.forall_mem_nil _⟩

theorem balances_breakOff (hidle : (m.strand d.id).flights = 0) (h : (m.strand d.id).Counts d)
    (page : String) (e : CauseChain) : ((m.breakOff d page e).strand d.id).Balances d.pages := by
  obtain ⟨es, hstrand, hes⟩ := @exists_strand_fail m d.id
    (.ofChain (.empty page) d.context d.channel d.outer (.dispatch d)) "<page>" none (.pageBuild e)
    .empty
  unfold breakOff failPage
  generalize m.fail _ _ _ _ _ = done at hstrand
  obtain ⟨failed, result⟩ := done
  dsimp only at hstrand
  have hidle' : (failed.strand d.id).flights = 0 := by
    rw [hstrand]
    exact hidle
  have hcounts : (failed.strand d.id).Counts d := by
    rw [hstrand]
    exact h.append rfl hes
  cases result with
  | some a => exact balances_conclude hidle' hcounts a
  | none => exact balances_abandoned hidle' hcounts

theorem balances_tryPage (hidle : (m.strand d.id).flights = 0) (h : (m.strand d.id).Counts d)
    (hpage : d.pages[d.tried]? = some page) :
    ((m.tryPage (d.trying page) page).strand d.id).Balances d.pages := by
  unfold tryPage
  dsimp only
  generalize hm : ({ m with metrics := m.metrics.recordPage } : Machine).log _ = next
  have hnext : next.strand d.id = (m.strand d.id).note [.building d.id page.name] := by
    rw [← hm]
    exact strand_log_of_eq rfl
  have hacts := @acts_buildChain next (fun _ => False) (d.trying page) page
  have hstrand := (hacts.strand_eq (i := d.id) id).trans hnext
  generalize next.buildChain (d.trying page) page = done at hstrand
  obtain ⟨built, result⟩ := done
  dsimp only at hstrand ⊢
  have hidle' : (built.strand d.id).flights = 0 := by
    rw [hstrand]
    exact hidle
  have hcounts : (built.strand d.id).Counts (d.trying page) := by
    rw [hstrand]
    exact h.trying hpage
  cases result with
  | error e => exact @balances_breakOff built (d.trying page) hidle' hcounts page.name e
  | ok chain =>
    have hsubmit : (built.submit (.step ((d.trying page).start chain))).strand d.id
        = (built.strand d.id).fly (.queued (.step ((d.trying page).start chain))) :=
      strand_submit_of_eq rfl
    rw [hsubmit]
    exact hcounts.fly hidle' rfl

theorem balances_advance (hidle : (m.strand d.id).flights = 0) (h : (m.strand d.id).Counts d) :
    ((m.advance d).strand d.id).Balances d.pages := by
  unfold advance
  split
  . next hnone => exact balances_notFound hidle h hnone
  . next hpage => exact balances_tryPage hidle h hpage

theorem balances_complete (hidle : (m.strand d.id).flights = 0) (h : (m.strand d.id).Counts d)
    (result : ChainResult) : ((m.complete (.dispatch d) result).strand d.id).Balances d.pages := by
  cases result with
  | answered a => exact balances_conclude hidle h a
  | abandoned evaluated => exact balances_abandoned hidle h
  | rejected evaluated rejecter =>
    have hlog : (m.log (.rejected d.id d.tried)).strand d.id
        = (m.strand d.id).note [.rejected d.id d.tried] := strand_log_of_eq rfl
    refine balances_advance (m := m.log (.rejected d.id d.tried)) ?_ ?_
    . rw [hlog]
      exact hidle
    . rw [hlog]
      exact h.append rfl (by simp [Event.isCounted])

theorem balances_dispatch (hm : m.Sane) {request : Request} {channel outer : ChannelId}
    {nested : Bool} :
    ((m.dispatch request channel outer nested).strand m.dispatches).Balances m.pages := by
  unfold dispatch
  dsimp only
  generalize hd : m.newDispatch request channel outer nested = d
  have hid : m.dispatches = d.id := by rw [← hd]; rfl
  have hpages : m.pages = d.pages := by rw [← hd]; rfl
  have htried : d.tried = 0 := by rw [← hd]; rfl
  have hreceive : (m.receive d).strand d.id
      = (m.strand d.id).note [.received d.id d.channel d.context.request] := strand_log_of_eq rfl
  have hstrand : (m.receive d).tryAdmit.2.strand d.id
      = Strand.empty.note [.received d.id d.channel d.context.request] := by
    rw [sameWork_tryAdmit.strand_eq, hreceive, ← hid, hm.fresh m.dispatches (Nat.le_refl _)]
  have hcounts : ((m.receive d).tryAdmit.2.strand d.id).Counts d := by
    rw [hstrand]
    exact ⟨rfl, htried.symm, by rw [htried]; exact Nat.zero_le _, rfl⟩
  have hidle : ((m.receive d).tryAdmit.2.strand d.id).flights = 0 := by
    rw [hstrand]
    rfl
  rw [hid, hpages]
  generalize (m.receive d).tryAdmit = done at hcounts hidle
  obtain ⟨admitted, next⟩ := done
  cases admitted with
  | true => exact balances_advance hidle hcounts
  | false =>
    dsimp only [shed]
    generalize next.settings.fallback.overloaded d.context.request = c
    have hleaves := @leaves_finishWith (next.guarded d.outer c).1 d .shed
      (next.guarded d.outer c).2
    rw [strand_guarded] at hleaves
    exact hcounts.answered hidle hleaves nofun (fun _ => htried)

end Pages

section Jobs

theorem balances_proceed {p : Progress} {evaluated : Nat} (hidle : (m.strand d.id).flights = 0)
    (h : (m.strand d.id).Counts d) {run : Run} (howner : run.owner = .dispatch d) (hp : p.Of run) :
    ((m.proceed (.dispatch d) evaluated p).1.strand d.id).Balances d.pages := by
  cases hf : p.flight? with
  | some f =>
    have hown := (flight?_owner hp hf).trans howner
    rw [strand_proceed_of_some hf (by rw [hown]; rfl)]
    exact h.fly hidle hown
  | none =>
    cases p with
    | continues later => cases hf
    | suspended s plan => cases hf
    | ended result => exact balances_complete hidle h result
    | escaped =>
      have hlog : (m.log (.escaped (some d.id))).strand d.id
          = (m.strand d.id).note [.escaped (some d.id)] := strand_log_of_eq rfl
      refine balances_complete (m := m.log (.escaped (some d.id))) ?_ ?_ _
      . rw [hlog]
        exact hidle
      . rw [hlog]
        exact h.append rfl (by simp [Event.isCounted])

/-- What a turn tells about its dispatch counts for nothing. -/
theorem exists_strand_turn (hk : m.Knows job.run) (hown : job.run.owner.id? = some i) :
    ∃ es, (m.turn job).1.strand i = (m.strand i).note es ∧ ∀ e ∈ es, e.isCounted = false := by
  obtain ⟨es, hstrand, hcase⟩ := keeps_turn hk
  have hforecast := (@forecast_sound m.settings job).events
  refine ⟨es, hstrand i hown, ?_⟩
  intro e he
  cases hcase with
  | inl hkept => exact isCounted_of_isOfRun (hforecast e (hkept.1 ▸ he))
  | inr hclosed => exact isCounted_of_isOfRun (hforecast e (hclosed.1.subset he))

theorem balances_work (hk : m.Knows job.run) (hidle : (m.strand d.id).flights = 0)
    (h : (m.strand d.id).Counts d) (howner : job.run.owner = .dispatch d) :
    ((m.work job).1.strand d.id).Balances d.pages := by
  have hid : job.run.owner.id? = some d.id := by rw [howner]; rfl
  obtain ⟨es, hstrand, hes⟩ := exists_strand_turn hk hid
  have hof := keeps_progress_of (keeps_turn hk)
  unfold work
  rw [howner]
  dsimp only
  refine balances_proceed ?_ ?_ howner hof
  . rw [hstrand]
    exact hidle
  . rw [hstrand]
    exact h.append rfl hes

theorem Owns.balances (h : m.Owns i n) (hm : m.Sane) (hb : (m.strand i).Balances pages) :
    (n.strand i).Balances pages := by
  cases h with
  | @works job started hstart hown =>
    rw [strand_startJob?_of_eq hstart hown] at hb
    rw [(sameWork_endJob _).strand_eq]
    obtain ⟨hidle, d, howner, rfl, hcounts⟩ := hb.of_fly
    have howner : job.run.owner = .dispatch d := howner
    obtain rfl : d.id = i := by
      rw [howner] at hown
      exact Option.some.inj hown
    exact balances_work ((hm.startJob? hstart).knows (hm.fits_startJob? hstart)) hidle hcounts
      howner
  | @wakes waited s closes outer r hsettings hwires hown hs =>
    have hsubmit : ((if closes then waited.close outer else waited).submit (.resume s r)).strand i
        = (waited.strand i).fly (.queued (.resume s r)) := by
      rw [← (@acts_closing waited closes outer).strand_eq (i := i) id]
      exact strand_submit_of_eq hown
    rw [hs] at hb
    rw [hsubmit]
    obtain ⟨hidle, d, howner, rfl, hcounts⟩ := hb.of_fly
    exact hcounts.fly hidle howner
  | @delivers waited channel outer r hsettings hwires hs =>
    rw [hs] at hb
    cases hopen : waited.isOpen channel with
    | true =>
      rw [strand_sendNow_of_open hopen]
      exact hb.append rfl rfl (by simp [Event.isCounted])
    | false =>
      rw [sendNow_of_closed hopen, strand_log_of_eq rfl]
      exact hb.append rfl rfl (by simp [Event.isCounted])

theorem Begets.balances (h : m.Begets n i) : ∃ pages, (n.strand i).Balances pages := by
  cases h with
  | @intro b channel outer request nested hb hg hi hc hs hg' =>
    subst hi
    rw [hs]
    exact ⟨b.pages, balances_dispatch hb⟩

theorem Stirs.balances_of_lt (h : m.Stirs n) (hm : m.Sane) (hi : i < m.dispatches)
    (hb : (m.strand i).Balances pages) : (n.strand i).Balances pages := by
  obtain hstep | ⟨id, wire, hw, rfl⟩ := h.cases
  . cases Classical.em (n.strand i = m.strand i) with
    | inl heq => exact heq ▸ hb
    | inr hne => exact (hstep.owns hm hi hne).balances hm hb
  . exact hb

theorem Stirs.exists_balances (h : m.Stirs n) (hm : m.Sane)
    (hall : ∀ i, i < m.dispatches → ∃ pages, (m.strand i).Balances pages)
    (hi : i < n.dispatches) : ∃ pages, (n.strand i).Balances pages := by
  cases Nat.lt_or_ge i m.dispatches with
  | inl hold =>
    obtain ⟨pages, hb⟩ := hall i hold
    exact ⟨pages, h.balances_of_lt hm hold hb⟩
  | inr hnew => exact (h.rears hm i hnew hi).balances

end Jobs

end Machine
end PageDispatch
