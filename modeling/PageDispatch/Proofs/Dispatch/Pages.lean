import PageDispatch.Proofs.Dispatch.Course

/-!
This module contains what a dispatch does with its pages: they are tried in order, each one once,
and the next one only after the last one rejected the request.
-/

namespace PageDispatch

def Event.built? : Event → Option String
  | building _ page => some page
  | _ => none

def Fate.dispatch? : Fate → Option Dispatch
  | flies f =>
    match f.run.owner with
    | .caller => none
    | .dispatch d => some d
  | answers d _ _ | abandons d => some d

section

variable {settings : Settings} {decorators : List Decorator} {d : Dispatch}

theorem Fate.dispatch?_flies {f : Flight} (h : f.run.owner = .dispatch d) :
    (Fate.flies f).dispatch? = some d := by
  dsimp only [dispatch?]
  rw [h]

theorem Fate.owner_of_dispatch? {f : Flight} (h : (Fate.flies f).dispatch? = some d) :
    f.run.owner = .dispatch d := by
  dsimp only [dispatch?] at h
  split at h
  . cases h
  . injection h with h
    rw [← h]
    assumption

theorem next_takes {f : Flight} (h : f.run.owner = .dispatch d) :
    d.Takes settings decorators f.run (Fate.next settings decorators (.flies f)) := by
  cases f with
  | queued job =>
    rw [Fate.next_queued h]
    apply prospect_takes
  | parked s closes outer r =>
    apply Dispatch.Takes.goes
    . simp
    . apply (Run.Resembles.refl s.run).precedes

end

/-- How far a dispatch is with its pages after some events: one after the other was tried. -/
structure Dispatch.Tracks (first : Dispatch) (es : List Event) (d : Dispatch) : Prop where
  follows : d.Follows first
  built : es.filterMap Event.built? = (first.pages.take d.tried).map Page.name
  rejected : ∀ i tried, .rejected i tried ∈ es → tried ≤ d.tried

def Prospect.Tracks (first : Dispatch) (p : Prospect) : Prop :=
  ∃ d, p.fate.dispatch? = some d ∧ first.Tracks p.events d

section

variable {first d : Dispatch} {es es' : List Event} {page : Page} {p : Prospect}

theorem built?_of_isTrial {e : Event} (h : e.isTrial = false) : e.built? = none := by
  cases e <;> first | rfl | cases h

theorem not_mem_of_isTrial {i tried : Nat} (h : ∀ e ∈ es, e.isTrial = false) :
    .rejected i tried ∉ es := by
  intro hmem
  have htrial := h _ hmem
  cases htrial

namespace Dispatch

theorem Follows.pages_eq (h : d.Follows first) : d.pages = first.pages := by
  obtain ⟨_, _, rfl⟩ := h
  rfl

theorem Tracks.append (h : first.Tracks es d) (hes : ∀ e ∈ es', e.isTrial = false) :
    first.Tracks (es ++ es') d where
  follows := h.follows
  built := by
    have hnone : es'.filterMap Event.built? = [] := by
      rw [List.filterMap_eq_nil_iff]
      intro e he
      apply built?_of_isTrial
      apply hes
      assumption
    rw [List.filterMap_append]
    rw [hnone]
    rw [List.append_nil]
    apply h.built
  rejected i tried hmem := by
    cases List.mem_append.mp hmem with
    | inl hold => exact h.rejected i tried hold
    | inr hnew => exact absurd hnew (not_mem_of_isTrial hes)

theorem Tracks.trying (h : first.Tracks es d) (hpage : d.pages[d.tried]? = some page) :
    first.Tracks (es ++ [.building d.id page.name]) (d.trying page) where
  follows := (follows_trying d page).trans h.follows
  built := by
    rw [h.follows.pages_eq] at hpage
    have htake : first.pages.take (d.tried + 1) = first.pages.take d.tried ++ [page] := by
      rw [List.take_add_one]
      rw [hpage]
      rfl
    rw [List.filterMap_append]
    rw [h.built]
    change _ = (first.pages.take (d.tried + 1)).map Page.name
    rw [htake]
    rw [List.map_append]
    rfl
  rejected i tried hmem := by
    apply Nat.le_succ_of_le
    apply h.rejected i
    simpa using hmem

theorem Tracks.falling (h : first.Tracks es d) :
    first.Tracks (es ++ [.rejected d.id d.tried]) d where
  follows := h.follows
  built := by
    rw [List.filterMap_append]
    rw [h.built]
    apply List.append_nil
  rejected i tried hmem := by
    cases List.mem_append.mp hmem with
    | inl hold => exact h.rejected i tried hold
    | inr hnew =>
      cases List.mem_singleton.mp hnew
      apply Nat.le_refl

theorem Tracks.resetting (h : first.Tracks es d) : first.Tracks es { d with current := none } :=
  ⟨Follows.trans ⟨d.tried, none, rfl⟩ h.follows, h.built, h.rejected⟩

theorem Tries.tracks (hp : d.Tries p) (h : first.Tracks es d) : (p.after es).Tracks first := by
  cases hp with
  | misses hpage =>
    refine ⟨_, rfl, ?_⟩
    unfold Prospect.after
    rw [List.append_nil]
    apply h.resetting
  | starts hpage howner =>
    refine ⟨_, Fate.dispatch?_flies howner, ?_⟩
    apply h.trying hpage
  | @breaks page disposition r report hpage hd =>
    refine ⟨_, rfl, ?_⟩
    have hreporting : ∀ e ∈ [Event.reporting (some d.id) report], e.isTrial = false := by
      intro e he
      rw [List.mem_singleton.mp he]
      rfl
    have htracks := (h.trying hpage).append hreporting
    rw [List.append_assoc] at htracks
    exact htracks

theorem Takes.tracks {settings : Settings} {decorators : List Decorator} {run : Run}
    (hp : d.Takes settings decorators run p) (howner : run.owner = .dispatch d)
    (h : first.Tracks es d) : (p.after es).Tracks first := by
  cases hp with
  | goes hes hf =>
    refine ⟨_, Fate.dispatch?_flies (hf.owner.trans howner), ?_⟩
    apply h.append
    apply isTrial_of_isOfRun
    apply isOfRun_of_isEffort hes
  | answers hes hd =>
    refine ⟨_, rfl, ?_⟩
    apply h.append
    apply isTrial_of_isOfRun hes
  | @escapes es hes =>
    have htrial := isTrial_of_isOfRun (isOfRun_of_isEffort hes)
    refine ⟨_, rfl, ?_⟩
    apply h.append
    rw [List.forall_mem_append]
    refine ⟨htrial, ?_⟩
    simp [Event.isTrial]
  | falls hes hlocked =>
    rw [Prospect.after_after]
    rw [← List.append_assoc]
    apply advancing_tries.tracks
    apply Tracks.falling
    apply h.append
    apply isTrial_of_isOfRun
    apply isOfRun_of_isEffort hes

end Dispatch

namespace Prospect

variable {settings : Settings} {decorators : List Decorator}

theorem Tracks.tracks (h : p.Tracks first) (hd : p.fate.dispatch? = some d) :
    first.Tracks p.events d := by
  obtain ⟨d', hd', ht⟩ := h
  rw [hd] at hd'
  cases hd'
  assumption

theorem Tracks.next (h : p.Tracks first) : (p.next settings decorators).Tracks first := by
  obtain ⟨d, hd, htracks⟩ := h
  cases p with
  | mk es fate =>
    cases fate with
    | flies f =>
      have howner := Fate.owner_of_dispatch? hd
      apply Dispatch.Takes.tracks (next_takes howner) howner htracks
    | answers d' disposition r =>
      rw [next_of_isOver rfl]
      exact ⟨d, hd, htracks⟩
    | abandons d' =>
      rw [next_of_isOver rfl]
      exact ⟨d, hd, htracks⟩

theorem Tracks.course (h : p.Tracks first) (steps : Nat) :
    (p.course settings decorators steps).Tracks first := by
  induction steps with
  | zero => assumption
  | succ steps ih => apply ih.next

end Prospect

theorem entering_tracks {settings : Settings} {decorators : List Decorator} (h : first.tried = 0)
    (admitted : Bool) : (first.entering settings decorators admitted).Tracks first := by
  have hfirst : first.Tracks [] first := by
    constructor
    . apply Dispatch.Follows.refl
    . rw [h]
      rfl
    . simp
  cases admitted with
  | true => apply advancing_tries.tracks hfirst
  | false => exact ⟨first, rfl, hfirst⟩

/-- What a dispatch may have come to as long as the page it tries did not reject the request. -/
inductive Dispatch.StaysOn (d : Dispatch) (page : Page) : Prospect → Prop
  | flies {es : List Event} {f : Flight} (howner : f.run.owner = .dispatch (d.trying page))
    (hes : ∀ e ∈ es, e.isEffort = true) : StaysOn d page ⟨.building d.id page.name :: es, .flies f⟩
  | ended {es : List Event} {fate : Fate} (hover : fate.isOver = true)
    (hes : ∀ i tried, .rejected i tried ∉ es) : StaysOn d page ⟨es, fate⟩

/-- What is told of a page that rejects the request: that it was tried, and what its run did. -/
def Page.trial (page : Page) (i tried : Nat) (es : List Event) : List Event :=
  .building i page.name :: (es ++ [.rejected i tried])

theorem Dispatch.StaysOn.rejected_not_mem (h : d.StaysOn page p) (i tried : Nat) :
    .rejected i tried ∉ p.events := by
  cases h with
  | flies howner hes =>
    intro hmem
    cases hmem with
    | tail _ hmem =>
      exact absurd hmem (not_mem_of_isTrial (isTrial_of_isOfRun (isOfRun_of_isEffort hes)))
  | ended hover hes => apply hes

section

variable {settings : Settings} {decorators : List Decorator}

theorem advancing_staysOn (hpage : d.pages[d.tried]? = some page) :
    d.StaysOn page (d.advancing settings decorators) := by
  generalize hp : d.advancing settings decorators = p
  have htries := @advancing_tries settings decorators d
  rw [hp] at htries
  cases htries with
  | misses hnone =>
    rw [hpage] at hnone
    cases hnone
  | starts hsome howner =>
    rw [hpage] at hsome
    cases hsome
    apply Dispatch.StaysOn.flies
    . assumption
    . simp
  | breaks hsome hd =>
    apply Dispatch.StaysOn.ended
    . rfl
    . simp

theorem Dispatch.StaysOn.next (h : d.StaysOn page p) :
    d.StaysOn page (p.next settings decorators) ∨
    ∃ es, (∀ e ∈ es, e.isEffort = true) ∧
      p.next settings decorators
        =
      ((d.trying page).advancing settings decorators).after (page.trial d.id (d.tried + 1) es) := by
  cases h with
  | @flies es f howner hes =>
    have htakes := @next_takes settings decorators (d.trying page) f howner
    have hnone : ∀ i tried, .rejected i tried ∉ Event.building d.id page.name :: es := by
      intro i tried hmem
      cases hmem with
      | tail _ hmem =>
        exact not_mem_of_isTrial (isTrial_of_isOfRun (isOfRun_of_isEffort hes)) hmem
    unfold Prospect.next
    dsimp only
    generalize Fate.next settings decorators (.flies f) = q at htakes
    -- nothing but a rejection leads away from the page
    cases htakes with
    | goes hmore hf =>
      apply Or.inl
      apply Dispatch.StaysOn.flies (hf.owner.trans howner)
      exact List.forall_mem_append.mpr ⟨hes, hmore⟩
    | answers hmore hd =>
      apply Or.inl
      apply Dispatch.StaysOn.ended rfl
      intro i tried
      rw [List.mem_append]
      simp [hnone i tried, not_mem_of_isTrial (isTrial_of_isOfRun hmore)]
    | escapes hmore =>
      apply Or.inl
      apply Dispatch.StaysOn.ended rfl
      intro i tried
      have hquiet := isTrial_of_isOfRun (isOfRun_of_isEffort hmore)
      rw [List.mem_append]
      simp [hnone i tried, not_mem_of_isTrial hquiet]
    | @falls more hmore hlocked =>
      apply Or.inr
      refine ⟨es ++ more, ?_, ?_⟩
      . rw [List.forall_mem_append]
        exact ⟨hes, hmore⟩
      . rw [Prospect.after_after]
        unfold Page.trial
        rw [List.append_assoc]
        rfl
  | ended hover hes =>
    apply Or.inl
    rw [Prospect.next_of_isOver hover]
    apply Dispatch.StaysOn.ended hover hes

theorem course_staysOn (hpage : d.pages[d.tried]? = some page) (steps : Nat) :
    d.StaysOn page ((d.advancing settings decorators).course settings decorators steps) ∨
    ∃ k es, k ≤ steps ∧ (∀ e ∈ es, e.isEffort = true) ∧
      (d.advancing settings decorators).course settings decorators k
        =
      ((d.trying page).advancing settings decorators).after (page.trial d.id (d.tried + 1) es) := by
  induction steps with
  | zero =>
    apply Or.inl
    apply advancing_staysOn hpage
  | succ steps ih =>
    cases ih with
    | inl hstays =>
      have hnext := @Dispatch.StaysOn.next d page _ settings decorators hstays
      apply hnext.imp_right
      intro hfalls
      obtain ⟨es, hes, heq⟩ := hfalls
      exact ⟨steps + 1, es, Nat.le_refl _, hes, heq⟩
    | inr hfell =>
      obtain ⟨k, es, hk, hes, heq⟩ := hfell
      exact .inr ⟨k, es, Nat.le_succ_of_le hk, hes, heq⟩

end

end
end PageDispatch
