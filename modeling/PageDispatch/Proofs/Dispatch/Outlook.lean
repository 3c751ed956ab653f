import PageDispatch.Proofs.Dispatch.Prospect

/-!
This module contains what a prospect can be: the cases of what a job makes of its dispatch, and of
what a dispatch does with its next page. Whatever holds of a dispatch by itself is proved from them.
-/

namespace PageDispatch

def Event.isTrial : Event → Bool
  | building _ _ | rejected _ _ => true
  | _ => false

theorem isTrial_of_isOfRun {es : List Event} (h : ∀ e ∈ es, e.isOfRun = true) :
    ∀ e ∈ es, e.isTrial = false := by
  intro e he
  have hrun := h e he
  cases e <;> first | rfl | cases hrun

theorem isOfRun_of_isEffort {es : List Event} (h : ∀ e ∈ es, e.isEffort = true) :
    ∀ e ∈ es, e.isOfRun = true := by
  intro e he
  apply Event.isOfRun_of_isEffort
  apply h
  assumption

/-- What a dispatch does when it goes on to its next page. -/
inductive Dispatch.Tries (d : Dispatch) : Prospect → Prop
  | misses {r : Response} (h : d.pages[d.tried]? = none) :
    Tries d ⟨[], .answers { d with current := none } .notFound r⟩
  | starts {page : Page} {f : Flight} (h : d.pages[d.tried]? = some page)
    (howner : f.run.owner = .dispatch (d.trying page)) :
    Tries d ⟨[.building d.id page.name], .flies f⟩
  | breaks {page : Page} {disposition : Disposition} {r : Response} {report : FailureReport}
    (h : d.pages[d.tried]? = some page) (hd : disposition ≠ .abandoned) :
    Tries d ⟨[.building d.id page.name, .reporting (some d.id) report],
      .answers (d.trying page) disposition r⟩

inductive Dispatch.Takes (settings : Settings) (decorators : List Decorator) (run : Run)
    (d : Dispatch) : Prospect → Prop
  | goes {es : List Event} {f : Flight} (hes : ∀ e ∈ es, e.isEffort = true)
    (hf : run.Precedes f.run) : Takes settings decorators run d ⟨es, .flies f⟩
  | answers {es : List Event} {disposition : Disposition} {r : Response}
    (hes : ∀ e ∈ es, e.isOfRun = true) (hd : disposition ≠ .abandoned) :
    Takes settings decorators run d ⟨es, .answers d disposition r⟩
  | escapes {es : List Event} (hes : ∀ e ∈ es, e.isEffort = true) :
    Takes settings decorators run d ⟨es ++ [.escaped (some d.id)], .abandons d⟩
  | falls {es : List Event} (hes : ∀ e ∈ es, e.isEffort = true) (hlocked : run.locked = false) :
    Takes settings decorators run d
      ((d.advancing settings decorators).after (es ++ [.rejected d.id d.tried]))

section

variable {settings : Settings} {decorators : List Decorator} {d : Dispatch}

theorem exists_concluding_eq (a : Answer) :
    ∃ disposition r, disposition ≠ .abandoned ∧
      d.concluding settings a = .answers d disposition r := by
  have hdisposition : (if a.record.kind = .failure then Disposition.failed else .answered)
      ≠ .abandoned := by
    split
    . simp
    . simp
  unfold Dispatch.concluding
  cases a.fatal with
  | none => exact ⟨_, _, hdisposition, rfl⟩
  | some fatal => exact ⟨_, _, hdisposition, rfl⟩

theorem advancing_tries : d.Tries (d.advancing settings decorators) := by
  unfold Dispatch.advancing
  cases hpage : d.pages[d.tried]? with
  | none =>
    apply Dispatch.Tries.misses
    assumption
  | some page =>
    dsimp only
    unfold Dispatch.trialing
    cases (d.trying page).building decorators page with
    | ok chain => apply Dispatch.Tries.starts hpage rfl
    | error e =>
      dsimp only
      unfold Dispatch.broken
      dsimp only
      obtain ⟨disposition, r, hd, heq⟩ := @exists_concluding_eq settings (d.trying page) _
      rw [heq]
      apply Dispatch.Tries.breaks hpage hd

theorem progress_takes {run : Run} {es : List Event} {progress : Progress}
    (h : Forecast.Sound run ⟨es, progress⟩) :
    d.Takes settings decorators run ((progress.prospect settings decorators d).after es) := by
  have hof := h.progress
  have hquiet := h.quiet
  dsimp only at hof hquiet
  cases progress with
  | continues later =>
    unfold Progress.prospect Prospect.after
    rw [List.append_nil]
    apply Dispatch.Takes.goes
    . apply hquiet
      simp
    . apply hof
  | suspended s plan =>
    unfold Progress.prospect Prospect.after
    rw [List.append_nil]
    apply Dispatch.Takes.goes
    . apply hquiet
      simp
    . rw [Suspension.flight_run]
      apply hof.precedes
  | ended result =>
    cases result with
    | answered a =>
      obtain ⟨disposition, r, hd, heq⟩ := @exists_concluding_eq settings d a
      unfold Progress.prospect Dispatch.completing Prospect.after
      rw [List.append_nil]
      dsimp only
      rw [heq]
      apply Dispatch.Takes.answers h.events hd
    | rejected evaluated rejecter =>
      unfold Progress.prospect Dispatch.completing
      dsimp only
      rw [Prospect.after_after]
      apply Dispatch.Takes.falls
      . apply hquiet
        simp
      . rw [Bool.eq_false_iff]
        intro hlocked
        apply h.lock hlocked evaluated rejecter rfl
    | abandoned evaluated => exact absurd rfl (h.finishes evaluated)
  | escaped =>
    apply Dispatch.Takes.escapes
    apply hquiet
    simp

theorem prospect_takes (job : Job) :
    d.Takes settings decorators job.run (job.prospect settings decorators d) := by
  apply progress_takes
  apply forecast_sound

end
end PageDispatch
