import PageDispatch.Proofs.Dispatch.Passage
import PageDispatch.Proofs.Run.Lifetime

/-!
This module contains that nothing of a dispatch is begun too early: a page is built only when the
one before it rejected the request, and a unit is evaluated only when the outcomes of all units
before it were applied.
-/

namespace PageDispatch

/-- Pages that were tried in turn: so many were rejected, and one more is on trial or not. -/
inductive InTurn (i : Nat) : Nat → Bool → List Event → Prop
  | start : InTurn i 0 false []
  | builds {rejected : Nat} {es : List Event} (h : InTurn i rejected false es) (page : String) :
    InTurn i rejected true (es ++ [.building i page])
  | rejects {rejected : Nat} {es : List Event} (h : InTurn i rejected true es) :
    InTurn i (rejected + 1) false (es ++ [.rejected i (rejected + 1)])

theorem InTurn.exists_of_prefix {i rejected : Nat} {onTrial : Bool} {es earlier : List Event}
    (h : InTurn i rejected onTrial es) (hearlier : earlier <+: es) :
    ∃ rejected onTrial, InTurn i rejected onTrial earlier := by
  induction h with
  | start =>
    rw [List.prefix_nil.mp hearlier]
    exact ⟨0, false, .start⟩
  | @builds rejected es h page ih =>
    cases List.prefix_concat_iff.mp hearlier with
    | inl heq => exact ⟨rejected, true, heq ▸ h.builds page⟩
    | inr hpre => exact ih hpre
  | @rejects rejected es h ih =>
    cases List.prefix_concat_iff.mp hearlier with
    | inl heq => exact ⟨rejected + 1, false, heq ▸ h.rejects⟩
    | inr hpre => exact ih hpre

/-- Whether a flight is on behalf of the page that is on trial. -/
def Flight.OnTrial (i : Nat) (es : List Event) (f : Flight) : Prop :=
  ∃ d rejected, f.run.owner = .dispatch d ∧ d.id = i ∧ d.tried = rejected + 1 ∧
    InTurn i rejected true es

structure Prospect.InTurn (i : Nat) (before : List Event) (p : Prospect) : Prop where
  pages : ∃ rejected onTrial,
    PageDispatch.InTurn i rejected onTrial (before ++ p.events.filter Event.isTrial)
  flight : ∀ f, p.fate = .flies f → f.OnTrial i (before ++ p.events.filter Event.isTrial)

section Prospects

variable {settings : Settings} {decorators : List Decorator} {d : Dispatch} {p : Prospect}
  {es before : List Event}

theorem filter_isTrial_of_none (h : ∀ e ∈ es, e.isTrial = false) :
    es.filter Event.isTrial = [] := by
  rw [List.filter_eq_nil_iff]
  intro e he
  rw [h e he]
  exact Bool.false_ne_true

theorem Dispatch.Tries.inTurn (hp : d.Tries p) (h : InTurn d.id d.tried false before) :
    p.InTurn d.id before := by
  cases hp with
  | misses hpage =>
    refine ⟨⟨d.tried, false, ?_⟩, ?_⟩
    . rw [List.filter_nil, List.append_nil]
      exact h
    . intro f hf
      cases hf
  | @starts page f hpage howner =>
    have hbuilds := h.builds page.name
    refine ⟨⟨d.tried, true, hbuilds⟩, ?_⟩
    intro g hg
    cases hg
    exact ⟨d.trying page, d.tried, howner, rfl, rfl, hbuilds⟩
  | @breaks page disposition r report hpage hd =>
    refine ⟨⟨d.tried, true, h.builds page.name⟩, ?_⟩
    intro f hf
    cases hf

theorem Dispatch.Takes.inTurn {run : Run} {rejected : Nat}
    (hp : d.Takes settings decorators run p) (howner : run.owner = .dispatch d)
    (htried : d.tried = rejected + 1) (h : InTurn d.id rejected true before) :
    p.InTurn d.id before := by
  cases hp with
  | goes hes hf =>
    have hnone := filter_isTrial_of_none (isTrial_of_isOfRun (isOfRun_of_isEffort hes))
    constructor <;> dsimp only <;> rw [hnone, List.append_nil]
    . exact ⟨rejected, true, h⟩
    . intro g hg
      cases hg
      exact ⟨d, rejected, hf.owner.trans howner, rfl, htried, h⟩
  | answers hes hd =>
    have hnone := filter_isTrial_of_none (isTrial_of_isOfRun hes)
    refine ⟨⟨rejected, true, ?_⟩, ?_⟩
    . dsimp only
      rw [hnone, List.append_nil]
      exact h
    . intro f hf
      cases hf
  | escapes hes =>
    have hnone := filter_isTrial_of_none (isTrial_of_isOfRun (isOfRun_of_isEffort hes))
    refine ⟨⟨rejected, true, ?_⟩, ?_⟩
    . dsimp only
      rw [List.filter_append, hnone]
      simpa [Event.isTrial] using h
    . intro f hf
      cases hf
  | @falls es hes hlocked =>
    have hnone := filter_isTrial_of_none (isTrial_of_isOfRun (isOfRun_of_isEffort hes))
    -- the next page is tried only after the rejection was told
    have hrejects := h.rejects
    rw [← htried] at hrejects
    have hnext := (@advancing_tries settings decorators d).inTurn hrejects
    have hevents : before ++ ((d.advancing settings decorators).after
        (es ++ [.rejected d.id d.tried])).events.filter Event.isTrial
        = before ++ [.rejected d.id d.tried]
          ++ (d.advancing settings decorators).events.filter Event.isTrial := by
      dsimp only [Prospect.after]
      rw [List.filter_append, List.filter_append, hnone, List.nil_append, ← List.append_assoc]
      rfl
    constructor <;> rw [hevents]
    . exact hnext.pages
    . exact hnext.flight

end Prospects

/-- Whether a dispatch that is still at work is so on behalf of the page that is on trial. -/
inductive Strand.InTurn (i : Nat) (s : Strand) : Prop
  | busy {f : Flight} (hflights : s.flights = {f}) (h : f.OnTrial i s.trials)
  | idle {rejected : Nat} {onTrial : Bool} (hflights : s.flights = 0)
    (h : PageDispatch.InTurn i rejected onTrial s.trials)

namespace Strand

variable {i : Nat} {s s' : Strand} {fate : Fate} {closed : Prop} {f : Flight} {e : Event}

theorem InTurn.pages (h : s.InTurn i) :
    ∃ rejected onTrial, PageDispatch.InTurn i rejected onTrial s.trials := by
  cases h with
  | busy hflights h =>
    obtain ⟨d, rejected, -, -, -, hturn⟩ := h
    exact ⟨rejected, true, hturn⟩
  | idle hflights h => exact ⟨_, _, h⟩

theorem InTurn.of_eq (h : s.InTurn i) (hflights : s'.flights = s.flights)
    (htrials : s'.trials = s.trials) : s'.InTurn i := by
  cases h with
  | busy hbusy h => exact .busy (hflights.trans hbusy) (htrials ▸ h)
  | idle hidle h => exact .idle (hflights.trans hidle) (htrials ▸ h)

theorem InTurn.note (h : s.InTurn i) (he : e.isTrial = false) : (s.note [e]).InTurn i := by
  refine h.of_eq rfl (trials_note_of_none ?_)
  intro event hmem
  rw [List.mem_singleton.mp hmem]
  exact he

theorem InTurn.of_fly (h : (s.fly f).InTurn i) : s.flights = 0 ∧ f.OnTrial i s.trials := by
  cases h with
  | busy hflights h =>
    obtain ⟨hnone, rfl⟩ := eq_of_add_singleton_eq hflights
    exact ⟨hnone, h⟩
  | idle hflights h => exact absurd hflights (add_singleton_ne_zero _ _)

theorem InTurn.leaves (hflights : s.flights = 0)
    (hpages : ∃ rejected onTrial, PageDispatch.InTurn i rejected onTrial s.trials)
    (hflight : ∀ f, fate = .flies f → f.OnTrial i s.trials) (h : fate.Leaves closed s s') :
    s'.InTurn i := by
  obtain ⟨rejected, onTrial, hturn⟩ := hpages
  have hidle : s.InTurn i := .idle hflights hturn
  cases h with
  | flies f =>
    refine .busy ?_ (hflight f rfl)
    dsimp only [fly]
    rw [hflights, zero_add]
  | answers now hdelivers =>
    refine InTurn.note ?_ rfl
    cases hdelivers with
    | later hr => exact hidle.of_eq rfl rfl
    | sent hr => exact hidle.note rfl
    | withheld hr hc => exact hidle.note rfl
  | abandons d now => exact hidle.note rfl

end Strand

namespace Machine

variable {m m' : Machine} {i : Nat} {d : Dispatch} {told : Prospect}

theorem Meets.inTurn (h : m.Meets m' d told) (hflights : (m.strand d.id).flights = 0)
    (htold : told.InTurn d.id (m.strand d.id).trials) : (m'.strand d.id).InTurn d.id := by
  obtain ⟨es, fate, hleaves, hcase⟩ := h
  have htrials : ((m.strand d.id).note es).trials
      = (m.strand d.id).trials ++ es.filter Event.isTrial := List.filter_append ..
  refine Strand.InTurn.leaves (s := (m.strand d.id).note es) hflights ?_ ?_ hleaves
  . rw [htrials]
    cases hcase with
    | inl hkept =>
      rw [hkept.1]
      exact htold.pages
    | inr hclosed =>
      -- what was told by then is the beginning of what was foretold
      obtain ⟨rejected, onTrial, hturn⟩ := htold.pages
      apply hturn.exists_of_prefix
      exact (List.prefix_append_right_inj _).mpr (hclosed.1.filter _)
  . intro f hf
    rw [htrials]
    cases hcase with
    | inl hkept =>
      rw [hkept.1]
      exact htold.flight f (hkept.2 ▸ hf)
    | inr hclosed =>
      obtain ⟨-, -, tried, current, rfl⟩ := hclosed
      cases hf

theorem Affects.inTurn (h : m.Affects m' i) (hs : (m.strand i).InTurn i) :
    (m'.strand i).InTurn i := by
  cases h with
  | idle h =>
    rw [h]
    exact hs
  | @worked started job d decorators hstart hid howner hbefore hafter hmeets =>
    subst hid
    rw [hstart] at hs
    obtain ⟨hflights, owner, rejected, howner', -, htried, hturn⟩ := hs.of_fly
    rw [show (Flight.queued job).run = job.run from rfl, howner] at howner'
    injection howner' with howner'
    subst howner'
    exact hmeets.inTurn hflights ((prospect_takes job).inTurn howner htried hturn)
  | @woke s closes outer r rest hs' hs'' =>
    rw [hs'] at hs
    obtain ⟨hflights, hparked⟩ := hs.of_fly
    rw [hs'']
    refine .busy (f := .queued (.resume s r)) ?_ hparked
    dsimp only [Strand.fly]
    rw [hflights, zero_add]
  | sent hs' hs'' =>
    rw [hs'] at hs
    rw [hs'']
    exact Strand.InTurn.note (hs.of_eq rfl rfl) rfl
  | withheld hs' hs'' hc =>
    rw [hs'] at hs
    rw [hs'']
    exact Strand.InTurn.note (hs.of_eq rfl rfl) rfl

theorem Begets.inTurn (h : m.Begets m' i) : (m'.strand i).InTurn i := by
  cases h with
  | @intro b channel outer request nested hb hg hi hc hs hg' =>
    subst hi
    obtain ⟨received, hreceived, hmeets⟩ := @meets_dispatch b _ request channel outer nested rfl
    generalize hd : b.newDispatch request channel outer nested = d at hreceived hmeets
    have hid : b.dispatches = d.id := by rw [← hd]; rfl
    have htried : d.tried = 0 := by rw [← hd]; rfl
    rw [hid] at hs ⊢
    rw [← hid, hb.fresh b.dispatches (Nat.le_refl _), hid] at hreceived
    have htrials : (received.strand d.id).trials = [] := by
      rw [hreceived]
      rfl
    rw [hs]
    refine hmeets.inTurn (by rw [hreceived]; rfl) ?_
    rw [htrials]
    have hstart : InTurn d.id d.tried false [] := by
      rw [htried]
      exact .start
    cases b.pool.isFull with
    | false => exact advancing_tries.inTurn hstart
    | true =>
      refine ⟨⟨d.tried, false, hstart⟩, ?_⟩
      intro f hf
      cases hf

theorem Reachable.inTurn {settings : Settings} (h : Reachable settings m) (hi : i < m.dispatches) :
    (m.strand i).InTurn i := by
  refine h.of_begets Begets.inTurn ?_ hi
  intro mid last i hmid hlast hold hturn
  exact (hlast.affects hmid.sane.1 hold).inTurn hturn

theorem Reachable.exists_inTurn {settings : Settings} (h : Reachable settings m) (i : Nat) :
    ∃ rejected onTrial, PageDispatch.InTurn i rejected onTrial (m.trials i) := by
  rw [trials_eq]
  cases Nat.lt_or_ge i m.dispatches with
  | inl hi => exact (h.inTurn hi).pages
  | inr hi =>
    rw [h.sane.1.fresh i hi]
    exact ⟨0, false, .start⟩

end Machine

section Counting

variable {settings : Settings} {job : Job} {f : Flight} {run : Run} {ps : List Passage}

/-- The evaluated units of a flight whose outcomes are not known yet. -/
def Flight.undecided : Flight → Nat
  | queued (.step _) => 0
  | queued (.resume _ _) | parked _ _ _ _ => 1

theorem evaluated_of_continues {later : Run} (h : job.ComesTo settings (.continues later)) :
    later.evaluated = job.evaluated := by
  obtain ⟨m, hsettings, hsane, hfit, hturn⟩ := h
  have hprogress := (Machine.does_turn (hsane.knows hfit)).progress
  rw [hturn, hsettings] at hprogress
  cases hglance : m.glance job with
  | unseen =>
    rw [hglance] at hprogress
    cases hprogress
  | seen isOpen =>
    rw [hglance] at hprogress
    have ⟨hdecision, hlater⟩ := isDecision_of_taking_continues hprogress.symm
    rw [hlater]
    cases job with
    | step run => exact evaluated_stance hdecision
    | resume s r => rfl

theorem Run.Defers.evaluated_eq {s : Suspension} {plan : DeferralPlan}
    (h : run.Defers settings s plan) : s.run.evaluated = run.evaluated + 1 := by
  cases h with
  | intro htakes hname hend => cases htakes <;> rfl

theorem Suspension.undecided_flight (s : Suspension) (plan : DeferralPlan) :
    (s.flight plan).undecided = 1 := by
  unfold flight
  split <;> rfl

/-- A run counts the units that it has passed, and the one that it waits for. -/
theorem Flight.Trail.evaluated_eq (h : f.Trail settings ps) :
    f.run.evaluated = ps.length + f.undecided := by
  induction h with
  | start => rfl
  | @passed ps p job base later h happlies hcomes ih =>
    rw [List.length_append, List.length_singleton]
    refine (evaluated_of_continues hcomes).trans ?_
    cases job with
    | step run => exact congrArg (· + 1) ih
    | resume s r => exact ih
  | @deferred ps run s plan h hdefers ih =>
    rw [Suspension.flight_run, Suspension.undecided_flight, hdefers.evaluated_eq]
    exact congrArg (· + 1) ih
  | resumed h ih => exact ih

end Counting

/-- The position of the unit that an event begins the evaluation of. -/
def Event.position? : Event → Option Nat
  | evaluating _ position _ _ => some position
  | _ => none

section Positions

variable {settings : Settings} {decorators : List Decorator} {run : Run} {d : Dispatch}
  {job : Job} {e : Event} {position : Nat}

theorem position?_of_isEffort (h : e.isEffort = false) : e.position? = none := by
  cases e <;> first | rfl | cases h

theorem isEffort_of_mem_failing {unit : String} {place : Option Nat} {failure : UnitFailure}
    {own : Accumulator} (he : e ∈ (run.failing settings unit place failure own).events) :
    e.isEffort = false := by
  rw [List.mem_singleton.mp he]
  rfl

theorem isEffort_of_mem_responding {unit : String} {place : Nat} {status : Status}
    {message : Option ResponseMessage} {own : Accumulator}
    (he : e ∈ (run.responding settings unit place status message own).events) :
    e.isEffort = false := by
  unfold Run.responding at he
  dsimp only at he
  split at he
  . cases he
  . cases he
  . split at he
    . cases he
    . exact isEffort_of_mem_failing he
    . cases he

theorem isEffort_of_mem_applying {unit : String} {place : Nat} {outcome : Outcome}
    {own : Accumulator} (he : e ∈ (run.applying settings unit place outcome own).events) :
    e.isEffort = false := by
  cases outcome with
  | rejected =>
    unfold Run.applying at he
    dsimp only at he
    split at he
    . exact isEffort_of_mem_failing he
    . cases he
  | consumed objects locked => cases he
  | respondWith status message => exact isEffort_of_mem_responding he

theorem position?_of_mem_evaluating {place : Nat} {u : HandlerUnit}
    (he : e ∈ (run.evaluating settings place u).events) (hp : e.position? = some position) :
    position = place := by
  unfold Run.evaluating at he
  cases hname : u.name with
  | error payload =>
    rw [hname] at he
    cases he
  | ok name =>
    rw [hname] at he
    cases List.mem_cons.mp he with
    | inl hfirst =>
      rw [hfirst] at hp
      exact (Option.some.inj hp).symm
    | inr hlater =>
      have hquiet : e.isEffort = false := by
        revert hlater
        cases (u.evaluate run.view).ending with
        | decided outcome => exact isEffort_of_mem_applying
        | deferred plan => exact fun hlater => absurd hlater List.not_mem_nil
        | failed cause => exact isEffort_of_mem_failing
        | panicked payload => exact isEffort_of_mem_failing
      rw [position?_of_isEffort hquiet] at hp
      cases hp

theorem position?_of_mem_processing {place : Nat} {element : ChainElement}
    (he : e ∈ (run.processing settings place element).events)
    (hp : e.position? = some position) : position = place := by
  cases element with
  | unit u => exact position?_of_mem_evaluating he hp
  | spec spec =>
    cases List.mem_cons.mp he with
    | inl hfirst =>
      rw [hfirst] at hp
      cases hp
    | inr hlater =>
      cases hmade : run.made settings spec with
      | ok u =>
        rw [hmade] at hlater
        exact position?_of_mem_evaluating hlater hp
      | error cause =>
        rw [hmade] at hlater
        rw [position?_of_isEffort (isEffort_of_mem_failing hlater)] at hp
        cases hp

theorem position?_of_mem_stepping (he : e ∈ (run.stepping settings).events)
    (hp : e.position? = some position) : position = run.evaluated := by
  unfold Run.stepping at he
  cases hnext : run.remnant.next? with
  | some next =>
    rw [hnext] at he
    exact position?_of_mem_processing he hp
  | none =>
    rw [hnext] at he
    unfold Run.exhausting at he
    dsimp only at he
    split at he
    . rw [position?_of_isEffort (isEffort_of_mem_failing he)] at hp
      cases hp
    . cases he

theorem isEffort_of_mem_resuming {s : Suspension} {r : Resolved}
    (he : e ∈ (s.resuming settings r).events) : e.isEffort = false := by
  match r with
  | .ok resolution => exact isEffort_of_mem_applying he
  | .error .abandoned => exact isEffort_of_mem_failing he
  | .error (.failed cause) => exact isEffort_of_mem_failing he

theorem position?_of_mem_advancing (he : e ∈ (d.advancing settings decorators).events) :
    e.position? = none := by
  have htries := @advancing_tries settings decorators d
  generalize d.advancing settings decorators = p at he htries
  cases htries with
  | misses hpage => cases he
  | starts hpage howner =>
    rw [List.mem_singleton.mp he]
    rfl
  | breaks hpage hd =>
    cases List.mem_cons.mp he with
    | inl hfirst =>
      rw [hfirst]
      rfl
    | inr hlast =>
      rw [List.mem_singleton.mp hlast]
      rfl

theorem position?_of_mem_progress {progress : Progress}
    (he : e ∈ (progress.prospect settings decorators d).events) : e.position? = none := by
  cases progress with
  | continues later => cases he
  | suspended s plan => cases he
  | escaped =>
    rw [List.mem_singleton.mp he]
    rfl
  | ended result =>
    cases result with
    | answered a => cases he
    | abandoned evaluated => cases he
    | rejected evaluated rejecter =>
      cases List.mem_cons.mp he with
      | inl hfirst =>
        rw [hfirst]
        rfl
      | inr hlater => exact position?_of_mem_advancing hlater

/-- A job begins with the unit that its run is at, and with no other one. -/
theorem position?_of_mem_prospect (he : e ∈ (job.prospect settings decorators d).events)
    (hp : e.position? = some position) : ∃ run, job = .step run ∧ position = run.evaluated := by
  cases List.mem_append.mp he with
  | inr hlater =>
    rw [position?_of_mem_progress hlater] at hp
    cases hp
  | inl hnow =>
    cases job with
    | step run => exact ⟨run, rfl, position?_of_mem_stepping hnow hp⟩
    | resume s r =>
      rw [position?_of_isEffort (isEffort_of_mem_resuming hnow)] at hp
      cases hp

end Positions

theorem exists_notes_of_leaves {fate : Fate} {closed : Prop} {s s' : Strand}
    (h : fate.Leaves closed s s') :
    ∃ notes, s'.events = s.events ++ notes ∧ ∀ e ∈ notes, e.position? = none := by
  cases h with
  | flies f => exact ⟨[], (List.append_nil _).symm, List.forall_mem_nil _⟩
  | abandons d now => exact ⟨[_], rfl, by simp [Event.position?]⟩
  | answers now hdelivers =>
    cases hdelivers with
    | later hr => exact ⟨[_], rfl, by simp [Event.position?]⟩
    | sent hr => exact ⟨[_, _], List.append_assoc .., by simp [Event.position?]⟩
    | withheld hr hc => exact ⟨[_, _], List.append_assoc .., by simp [Event.position?]⟩

namespace Machine

variable {settings : Settings} {m n : Machine} {i position : Nat} {d : Dispatch} {told : Prospect}
  {e : Event} {es : List Event}

/-- What a dispatch adds to its events: something of what was foretold, and how it ended. -/
theorem Meets.exists_events (h : m.Meets n d told) :
    ∃ es, (n.strand d.id).events = (m.strand d.id).events ++ es ∧
      ∀ e ∈ es, e ∈ told.events ∨ e.position? = none := by
  obtain ⟨es, fate, hleaves, hcase⟩ := h
  obtain ⟨notes, hevents, hnotes⟩ := exists_notes_of_leaves hleaves
  have hes : es <+: told.events := by
    cases hcase with
    | inl hkept => exact hkept.1 ▸ List.prefix_refl _
    | inr hclosed => exact hclosed.1
  refine ⟨es ++ notes, hevents.trans (List.append_assoc ..), ?_⟩
  intro e he
  cases List.mem_append.mp he with
  | inl htold => exact .inl (hes.subset htold)
  | inr hnote => exact .inr (hnotes e hnote)

theorem received_mem_dispatch {request : Request} {channel outer : ChannelId} {nested : Bool} :
    .received m.dispatches channel request
      ∈ ((m.dispatch request channel outer nested).strand m.dispatches).events := by
  obtain ⟨received, hreceived, hmeets⟩ := @meets_dispatch m _ request channel outer nested rfl
  obtain ⟨es, hevents, -⟩ := hmeets.exists_events
  rw [hreceived] at hevents
  change (strand _ m.dispatches).events = _ at hevents
  rw [hevents]
  exact List.mem_append_left _ (List.mem_append_right _ List.mem_cons_self)

theorem Affects.exists_events (h : m.Affects n i) :
    ∃ es, (n.strand i).events = (m.strand i).events ++ es ∧
      ∀ e ∈ es, ∀ position, e.position? = some position →
        ∃ run, .queued (.step run) ∈ (m.strand i).flights ∧ position = run.evaluated := by
  cases h with
  | idle h =>
    rw [h]
    exact ⟨[], (List.append_nil _).symm, fun e he => nomatch he⟩
  | @worked started job d decorators hs hid howner hbefore hafter hmeets =>
    subst hid
    obtain ⟨es, hevents, hes⟩ := hmeets.exists_events
    rw [hs]
    refine ⟨es, hevents, ?_⟩
    intro e he position hp
    cases hes e he with
    | inl htold =>
      obtain ⟨run, rfl, hposition⟩ := position?_of_mem_prospect htold hp
      exact ⟨run, Multiset.mem_add.mpr (.inr (Multiset.mem_singleton_self _)), hposition⟩
    | inr hnone =>
      rw [hnone] at hp
      cases hp
  | woke hs hs' =>
    rw [hs, hs']
    exact ⟨[], (List.append_nil _).symm, fun e he => nomatch he⟩
  | sent hs hs' =>
    rw [hs, hs']
    refine ⟨[_], rfl, ?_⟩
    intro e he position hp
    rw [List.mem_singleton.mp he] at hp
    cases hp
  | withheld hs hs' hc =>
    rw [hs, hs']
    refine ⟨[_], rfl, ?_⟩
    intro e he position hp
    rw [List.mem_singleton.mp he] at hp
    cases hp

theorem Begets.position? (h : m.Begets n i) (he : e ∈ (n.strand i).events) :
    e.position? = none := by
  cases h with
  | @intro b channel outer request nested hb hg hi hc hs hg' =>
    subst hi
    obtain ⟨received, hreceived, hmeets⟩ := @meets_dispatch b _ request channel outer nested rfl
    have hfresh : b.strand (b.newDispatch request channel outer nested).id = .empty :=
      hb.fresh b.dispatches (Nat.le_refl _)
    obtain ⟨es, hevents, hes⟩ := hmeets.exists_events
    rw [hreceived, hfresh] at hevents
    rw [hs] at he
    change e ∈ ((b.dispatch request channel outer nested).strand
      (b.newDispatch request channel outer nested).id).events at he
    rw [hevents] at he
    cases List.mem_append.mp he with
    | inl hfirst =>
      rw [List.mem_singleton.mp hfirst]
      rfl
    | inr hlater =>
      cases hes e hlater with
      | inr hnone => exact hnone
      | inl htold =>
        cases hfull : b.pool.isFull with
        | false =>
          rw [hfull] at htold
          exact position?_of_mem_advancing htold
        | true =>
          rw [hfull] at htold
          cases htold

/-- A unit is evaluated only once the outcomes of all units before it were applied. -/
theorem Reachable.evaluates_in_turn (h : Reachable settings m) (hstep : m.Step n)
    (hes : n.journal = m.journal ++ es) (he : e ∈ es) (hi : e.dispatch? = some i)
    (hp : e.position? = some position) :
    ∃ run ps, (m.strand i).flights = {.queued (.step run)} ∧ Run.Trail settings ps run ∧
      ps.length = position := by
  have hm := h.sane.1
  have hevents : (n.strand i).events
      = (m.strand i).events ++ es.filter fun e => e.dispatch? = some i := by
    unfold strand
    rw [hes]
    exact List.filter_append ..
  have hmem : e ∈ es.filter fun e => e.dispatch? = some i :=
    List.mem_filter.mpr ⟨he, decide_eq_true hi⟩
  have hlt : i < n.dispatches := by
    apply Nat.lt_of_not_le
    intro hle
    rw [(hstep.sane hm).1.fresh i hle] at hevents
    rw [(List.append_eq_nil_iff.mp hevents.symm).2] at hmem
    cases hmem
  cases Nat.lt_or_ge i m.dispatches with
  | inl hold =>
    obtain ⟨added, hadded, hall⟩ := (hstep.affects hm hold).exists_events
    rw [hevents, List.append_cancel_left_eq] at hadded
    rw [hadded] at hmem
    obtain ⟨run, hflight, hposition⟩ := hall e hmem position hp
    obtain ⟨hholds, hown⟩ := mem_flights_iff.mp hflight
    obtain ⟨ps, htrail⟩ := h.exists_trail hholds
    have hcount := hposition.trans htrail.evaluated_eq
    exact ⟨run, ps, flights_eq_singleton h hholds hown, ⟨_, rfl, htrail⟩, hcount.symm⟩
  | inr hnew =>
    -- a dispatch is only queued in the step that it is started in
    have hbegets := hstep.rears hm i hnew hlt
    rw [hbegets.position? (hevents ▸ List.mem_append_right _ hmem)] at hp
    cases hp

end Machine

end PageDispatch
