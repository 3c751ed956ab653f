import PageDispatch.Proofs.Dispatch.Pages
import PageDispatch.Proofs.Run.Ownership

/-!
This module contains the verification that two dispatches which differ in their pages only follow
the same course as long as they try the same pages.
-/

namespace PageDispatch

namespace Event

/-- An event as it is told by a dispatch that tried fewer pages. -/
def recounted (skipped : Nat) : Event → Event
  | rejected dispatch tried => rejected dispatch (tried - skipped)
  | e => e

@[simp]
theorem recounted_zero (e : Event) : e.recounted 0 = e := by
  cases e <;> rfl

theorem recounted_of_isTrial {skipped : Nat} {e : Event} (h : e.isTrial = false) :
    e.recounted skipped = e := by
  cases e <;> first | rfl | cases h

theorem map_recounted_of_isOfRun {skipped : Nat} {es : List Event}
    (h : ∀ e ∈ es, e.isOfRun = true) : es.map (recounted skipped) = es := by
  rw [List.map_congr_left (g := id)]
  . apply List.map_id
  . intro e he
    apply recounted_of_isTrial
    apply isTrial_of_isOfRun
    apply h
    assumption

end Event

/-- Whether two dispatches differ in their pages only, of which the first one tried some more. -/
structure Dispatch.Twins (skipped : Nat) (d d' : Dispatch) : Prop where
  id : d'.id = d.id
  nested : d'.nested = d.nested
  context : d'.context = d.context
  channel : d'.channel = d.channel
  outer : d'.outer = d.outer
  tried : d.tried = d'.tried + skipped

inductive Fate.Alike (R : Dispatch → Dispatch → Prop) : Fate → Fate → Prop
  | flies {f : Flight} {d d' : Dispatch} (howner : f.run.owner = .dispatch d) (h : R d d') :
    Alike R (.flies f) (.flies (f.ownedBy (.dispatch d')))
  | answers {d d' : Dispatch} {disposition : Disposition} {r : Response} (h : R d d') :
    Alike R (.answers d disposition r) (.answers d' disposition r)
  | abandons {d d' : Dispatch} (h : R d d') : Alike R (.abandons d) (.abandons d')

/-- Whether two courses are alike, but for the pages that the first dispatch tried before. -/
structure Prospect.Alike (R : Dispatch → Dispatch → Prop) (skipped : Nat) (p p' : Prospect) :
    Prop where
  events : p'.events = p.events.map (Event.recounted skipped)
  fate : p.fate.Alike R p'.fate

section

variable {R : Dispatch → Dispatch → Prop} {skipped : Nat} {settings : Settings}
  {decorators : List Decorator} {d d' : Dispatch} {fate fate' : Fate} {p p' : Prospect}
  {es es' : List Event}

theorem Fate.Alike.isOver_eq (h : fate.Alike R fate') : fate'.isOver = fate.isOver := by
  cases h with
  | flies howner h => rfl
  | answers h => rfl
  | abandons h => rfl

theorem Fate.Alike.exists_dispatch? (h : fate.Alike R fate') :
    ∃ d d', fate.dispatch? = some d ∧ fate'.dispatch? = some d' ∧ R d d' := by
  cases h with
  | @flies f d d' howner h =>
    refine ⟨d, d', dispatch?_flies howner, ?_, h⟩
    apply dispatch?_flies
    rw [Flight.run_ownedBy]
    rfl
  | @answers d d' disposition r h => exact ⟨d, d', rfl, rfl, h⟩
  | @abandons d d' h => exact ⟨d, d', rfl, rfl, h⟩

theorem Prospect.Alike.after (h : p.Alike R skipped p')
    (hes : es' = es.map (Event.recounted skipped)) :
    (p.after es).Alike R skipped (p'.after es') := by
  constructor
  . unfold Prospect.after
    rw [List.map_append]
    rw [← hes]
    rw [← h.events]
  . apply h.fate

theorem Prospect.Alike.events_eq (h : p.Alike R 0 p') : p'.events = p.events := by
  rw [h.events]
  rw [List.map_congr_left (g := id)]
  . apply List.map_id
  . simp

theorem start_ownedBy (h : d.Twins skipped d') (chain : HandlerChain) :
    (d.start chain).ownedBy (.dispatch d') = d'.start chain := by
  unfold Dispatch.start
  rw [h.context, h.channel, h.outer]
  rfl

theorem concluding_alike (h : d.Twins skipped d') (hR : R d d') (a : Answer) :
    (d.concluding settings a).Alike R (d'.concluding settings a) := by
  unfold Dispatch.concluding
  rw [h.context]
  cases a.fatal with
  | none => apply Fate.Alike.answers hR
  | some fatal => apply Fate.Alike.answers hR

theorem building_eq (h : d.Twins skipped d') (page : Page) :
    d'.building decorators page = d.building decorators page := by
  unfold Dispatch.building Dispatch.constructing
  rw [h.context]

theorem broken_alike (h : d.Twins skipped d') (hR : R d d') (page : String) (e : CauseChain) :
    (d.broken settings page e).Alike R skipped (d'.broken settings page e) := by
  unfold Dispatch.broken
  rw [← start_ownedBy h]
  rw [h.id]
  constructor
  . rfl
  . apply concluding_alike h hR

theorem trialing_alike (h : d.Twins skipped d') (hR : R d d') (page : Page) :
    (d.trialing settings decorators page).Alike R skipped
      (d'.trialing settings decorators page) := by
  unfold Dispatch.trialing
  rw [building_eq h]
  rw [h.id]
  cases d.building decorators page with
  | ok chain =>
    constructor
    . rfl
    . dsimp only
      rw [← start_ownedBy h]
      apply Fate.Alike.flies (f := .queued (.step (d.start chain))) rfl hR
  | error e =>
    apply Prospect.Alike.after
    . apply broken_alike h hR
    . rfl

theorem Dispatch.Twins.trying (h : d.Twins skipped d') (page : Page) :
    (d.trying page).Twins skipped (d'.trying page) := by
  refine ⟨h.id, h.nested, h.context, h.channel, h.outer, ?_⟩
  unfold Dispatch.trying
  dsimp only
  rw [h.tried]
  omega

theorem advancing_alike (h : d.Twins skipped d') (hnext : d'.pages[d'.tried]? = d.pages[d.tried]?)
    (hsome : ∀ page, d.pages[d.tried]? = some page → R (d.trying page) (d'.trying page))
    (hnone : d.pages[d.tried]? = none → R { d with current := none } { d' with current := none }) :
    (d.advancing settings decorators).Alike R skipped (d'.advancing settings decorators) := by
  have hr : (settings.fallback.notFound d'.context.request).orMinimal
      = (settings.fallback.notFound d.context.request).orMinimal := by rw [h.context]
  unfold Dispatch.advancing
  rw [hnext]
  rw [hr]
  cases hpage : d.pages[d.tried]? with
  | none =>
    constructor
    . rfl
    . apply Fate.Alike.answers (hnone hpage)
  | some page =>
    apply trialing_alike
    . apply h.trying
    . apply hsome page hpage

theorem flight_ownedBy (s : Suspension) (owner : Owner) (plan : DeferralPlan) :
    (s.ownedBy owner).flight plan = (s.flight plan).ownedBy owner := by
  unfold Suspension.flight
  split <;> rfl

theorem progress_alike {run : Run} {progress : Progress} (hof : progress.Of run)
    (howner : run.owner = .dispatch d) (h : d.Twins skipped d') (hR : R d d')
    (hends : ∀ evaluated, progress ≠ .ended (.abandoned evaluated))
    (hrejected : ∀ evaluated rejecter, progress ≠ .ended (.rejected evaluated rejecter)) :
    (progress.prospect settings decorators d).Alike R skipped
      ((progress.ownedBy (.dispatch d')).prospect settings decorators d') := by
  cases progress with
  | continues later =>
    have hlater : (Flight.queued (.step later)).run.owner = .dispatch d := hof.owner.trans howner
    constructor
    . rfl
    . apply Fate.Alike.flies hlater hR
  | suspended s plan =>
    have hlater : (s.flight plan).run.owner = .dispatch d := by
      rw [Suspension.flight_run]
      apply hof.owner.trans howner
    constructor
    . rfl
    . unfold Progress.ownedBy Progress.prospect
      dsimp only
      rw [flight_ownedBy]
      apply Fate.Alike.flies hlater hR
  | ended result =>
    cases result with
    | answered a =>
      constructor
      . rfl
      . apply concluding_alike h hR
    | rejected evaluated rejecter => exact absurd rfl (hrejected evaluated rejecter)
    | abandoned evaluated => exact absurd rfl (hends evaluated)
  | escaped =>
    constructor
    . unfold Progress.ownedBy Progress.prospect
      rw [h.id]
      rfl
    . apply Fate.Alike.abandons hR

/-- Whether two dispatches went on to their next page both, after the last one was rejected. -/
def Prospect.FallAlike (settings : Settings) (decorators : List Decorator) (d d' : Dispatch)
    (es es' : List Event) (p p' : Prospect) : Prop :=
  ∃ more, (∀ e ∈ more, e.isEffort = true) ∧
    p = (d.advancing settings decorators).after (es ++ more ++ [.rejected d.id d.tried]) ∧
    p' = (d'.advancing settings decorators).after (es' ++ more ++ [.rejected d'.id d'.tried])

theorem Prospect.FallAlike.after (h : FallAlike settings decorators d d' [] [] p p')
    (es es' : List Event) :
    FallAlike settings decorators d d' es es' (p.after es) (p'.after es') := by
  obtain ⟨more, hmore, heq, heq'⟩ := h
  refine ⟨more, hmore, ?_, ?_⟩
  . rw [heq]
    rw [after_after]
    simp
  . rw [heq']
    rw [after_after]
    simp

theorem Prospect.FallAlike.alike (h : FallAlike settings decorators d d' es es' p p')
    (htwins : d.Twins skipped d') (hes : es' = es.map (Event.recounted skipped))
    (hadvancing : (d.advancing settings decorators).Alike R skipped
      (d'.advancing settings decorators)) : p.Alike R skipped p' := by
  obtain ⟨more, hmore, heq, heq'⟩ := h
  have hrejected : Event.rejected d'.id d'.tried
      = (Event.rejected d.id d.tried).recounted skipped := by
    dsimp only [Event.recounted]
    rw [htwins.id]
    rw [htwins.tried]
    rw [Nat.add_sub_cancel]
  rw [heq, heq']
  apply hadvancing.after
  rw [List.map_append, List.map_append]
  rw [← hes]
  rw [Event.map_recounted_of_isOfRun]
  . rw [hrejected]
    rfl
  . intro e he
    apply Event.isOfRun_of_isEffort
    apply hmore
    assumption

theorem prospect_alike {job : Job} (howner : job.run.owner = .dispatch d) (h : d.Twins skipped d')
    (hR : R d d') :
    (job.prospect settings decorators d).Alike R skipped
      ((job.ownedBy (.dispatch d')).prospect settings decorators d') ∨
    Prospect.FallAlike settings decorators d d' [] [] (job.prospect settings decorators d)
      ((job.ownedBy (.dispatch d')).prospect settings decorators d') := by
  have hid : (Owner.dispatch d').id? = job.run.owner.id? := by
    rw [howner]
    change some d'.id = some d.id
    rw [h.id]
  have hsound := @forecast_sound settings job
  unfold Job.prospect
  rw [forecast_ownedBy hid]
  generalize job.forecast settings = f at hsound
  -- only a rejection moves a dispatch on to its next page, where the two may part
  cases Classical.em (∃ evaluated rejecter, f.progress = .ended (.rejected evaluated rejecter)) with
  | inl hrejected =>
    obtain ⟨evaluated, rejecter, hprogress⟩ := hrejected
    apply Or.inr
    refine ⟨f.events, ?_, ?_, ?_⟩
    . apply hsound.quiet
      simp [hprogress]
    . rw [hprogress]
      apply Prospect.after_after
    . unfold Forecast.ownedBy
      dsimp only
      rw [hprogress]
      apply Prospect.after_after
  | inr hrejected =>
    apply Or.inl
    apply Prospect.Alike.after
    . apply progress_alike hsound.progress howner h hR hsound.finishes
      intro evaluated rejecter heq
      exact hrejected ⟨evaluated, rejecter, heq⟩
    . rw [Event.map_recounted_of_isOfRun hsound.events]
      rfl

theorem Fate.Alike.next (h : fate.Alike R fate') (hR : ∀ d d', R d d' → d.Twins skipped d') :
    (fate.next settings decorators).Alike R skipped (fate'.next settings decorators) ∨
    ∃ d d', fate.dispatch? = some d ∧ R d d' ∧
      Prospect.FallAlike settings decorators d d' [] [] (fate.next settings decorators)
        (fate'.next settings decorators) := by
  cases h with
  | @flies f d d' howner hd =>
    cases f with
    | queued job =>
      have howner' : (job.ownedBy (.dispatch d')).run.owner = .dispatch d' := by
        rw [Job.run_ownedBy]
        rfl
      dsimp only [Flight.ownedBy]
      rw [Fate.next_queued howner]
      rw [Fate.next_queued howner']
      apply (prospect_alike howner (hR d d' hd) hd).imp_right
      intro hfall
      exact ⟨d, d', dispatch?_flies howner, hd, hfall⟩
    | parked s closes outer r =>
      apply Or.inl
      constructor
      . rfl
      . apply Fate.Alike.flies (f := .queued (.resume s r)) howner hd
  | answers hd => exact .inl ⟨rfl, .answers hd⟩
  | abandons hd => exact .inl ⟨rfl, .abandons hd⟩

theorem next_alike (h : p.Alike R skipped p') (hR : ∀ d d', R d d' → d.Twins skipped d') :
    (p.next settings decorators).Alike R skipped (p'.next settings decorators) ∨
    ∃ d d', p.fate.dispatch? = some d ∧ R d d' ∧
      Prospect.FallAlike settings decorators d d' p.events p'.events (p.next settings decorators)
        (p'.next settings decorators) := by
  have hnext := @Fate.Alike.next R skipped settings decorators _ _ h.fate hR
  cases hnext with
  | inl halike =>
    apply Or.inl
    apply halike.after h.events
  | inr hfall =>
    obtain ⟨d, d', hd, htwins, hfall⟩ := hfall
    exact .inr ⟨d, d', hd, htwins, hfall.after p.events p'.events⟩

end
end PageDispatch
