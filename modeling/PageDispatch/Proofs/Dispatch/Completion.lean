import PageDispatch.Proofs.Dispatch.Census
import PageDispatch.Proofs.Run.Ledger

/-!
This module contains that dispatches are neither lost nor finished twice: a dispatch that was
started is held in one place, or it is finished.
-/

namespace PageDispatch

namespace Event

def finishes (i : Nat) : Event → Bool
  | finished j _ _ => decide (j = i)
  | _ => false

def isFinish : Event → Bool
  | finished _ _ _ => true
  | _ => false

end Event

theorem isFinish_of_isInner {e : Event} (h : e.isInner = true) : e.isFinish = false := by
  cases e <;> first | rfl | cases h

namespace Strand

/-- The places in which a dispatch is held, and the times that it was finished. -/
def account (s : Strand) : Nat :=
  Multiset.card s.flights + s.events.countP (·.isFinish)

variable {s s' : Strand} {es : List Event} {f : Flight} {d : Dispatch} {r : Response}
  {closed : Prop} {fate : Fate}

@[simp]
theorem account_fly (s : Strand) (f : Flight) : (s.fly f).account = s.account + 1 := by
  simp only [account, fly, Multiset.card_add, Multiset.card_singleton]
  omega

@[simp]
theorem account_owe (s : Strand) (channel : ChannelId) (r : Response) :
    (s.owe channel r).account = s.account := rfl

theorem account_note (s : Strand) (es : List Event) :
    (s.note es).account = s.account + es.countP (·.isFinish) := by
  simp only [account, note, List.countP_append]
  omega

theorem account_note_of_inner (s : Strand) (h : ∀ e ∈ es, e.isInner = true) :
    (s.note es).account = s.account := by
  have hzero : es.countP (·.isFinish) = 0 := by
    rw [List.countP_eq_zero]
    intro e he
    rw [isFinish_of_isInner (h e he)]
    exact Bool.false_ne_true
  rw [account_note, hzero, Nat.add_zero]

theorem Delivers.account_eq (h : s.Delivers d r closed s') : s'.account = s.account := by
  cases h with
  | later hr => rfl
  | sent hr => exact account_note s _
  | withheld hr hc => exact account_note s _

/-- Whatever becomes of a dispatch, it is held in one more place or finished once more. -/
theorem account_of_leaves (h : fate.Leaves closed s s') : s'.account = s.account + 1 := by
  cases h with
  | flies f => exact account_fly s f
  | answers now hdelivers =>
    rw [account_note, hdelivers.account_eq]
    rfl
  | abandons d now => exact account_note s _

end Strand

theorem Alarm.flight?_of_parked? {alarm : Alarm} {i : Nat} (h : alarm.parked? = none) :
    alarm.flight? i = none := by
  unfold Alarm.parked? at h
  unfold Alarm.flight?
  split
  . cases h
  . rfl

/-- In how many places a job that the worker has taken holds a dispatch. -/
def Job.holds (job : Job) (i : Nat) : Nat := if job.run.owner.id? = some i then 1 else 0

namespace Machine

def queued (m : Machine) (i : Nat) : Nat :=
  m.pool.waiting.countP fun job => decide (job.run.owner.id? = some i)

def parked (m : Machine) (i : Nat) : Nat :=
  m.timers.countP fun timer => (timer.alarm.flight? i).isSome

def finishes (m : Machine) (i : Nat) : Nat :=
  m.journal.countP (·.finishes i)

variable {m m' : Machine} {i : Nat} {d : Dispatch} {told : Prospect} {job : Job}
  {started : Machine}

theorem card_flights_strand (m : Machine) (i : Nat) :
    Multiset.card (m.strand i).flights = m.queued i + m.parked i := by
  have hqueued : (m.pool.waiting.filterMap (Job.flight? i)).length = m.queued i := by
    rw [List.length_filterMap_eq_countP, queued]
    congr 1
    funext job
    unfold Job.flight?
    split
    . next hown => simp [hown]
    . next hown => simp [hown]
  rw [strand, Multiset.card_add, Multiset.coe_card, Multiset.coe_card, hqueued,
    List.length_filterMap_eq_countP]
  rfl

theorem countP_events_strand (m : Machine) (i : Nat) :
    (m.strand i).events.countP (·.isFinish) = m.finishes i := by
  rw [strand, finishes, List.countP_filter]
  congr 1
  funext e
  cases e <;> simp [Event.isFinish, Event.finishes, Event.dispatch?]

theorem account_strand (m : Machine) (i : Nat) :
    (m.strand i).account = m.queued i + m.parked i + m.finishes i := by
  rw [Strand.account, card_flights_strand, countP_events_strand]

theorem Meets.account_eq (h : m.Meets m' d told) (htold : ∀ e ∈ told.events, e.isInner = true) :
    (m'.strand d.id).account = (m.strand d.id).account + 1 := by
  obtain ⟨es, fate, hleaves, hcase⟩ := h
  have hes : ∀ e ∈ es, e.isInner = true := by
    cases hcase with
    | inl hkept =>
      rw [hkept.1]
      exact htold
    | inr hclosed => exact fun e he => htold e (hclosed.1.subset he)
  rw [Strand.account_of_leaves hleaves, Strand.account_note_of_inner _ hes]

theorem Affects.account_eq (h : m.Affects m' i) : (m'.strand i).account = (m.strand i).account := by
  cases h with
  | idle h => rw [h]
  | worked decorators hs hid howner hbefore hafter hmeets =>
    rw [hs, Strand.account_fly, ← hid]
    exact hmeets.account_eq (prospect_sound howner).inner
  | woke hs hs' => rw [hs, hs', Strand.account_fly, Strand.account_fly]
  | sent hs hs' => rw [hs, hs', Strand.account_owe, Strand.account_note]; rfl
  | withheld hs hs' hc => rw [hs, hs', Strand.account_owe, Strand.account_note]; rfl

theorem Begets.account_eq (h : m.Begets m' i) : (m'.strand i).account = 1 := by
  cases h with
  | @intro b channel outer request nested hb hg hi hc hs hg' =>
    subst hi
    obtain ⟨received, hreceived, hmeets⟩ := @meets_dispatch b _ request channel outer nested rfl
    have hfresh : b.strand (b.newDispatch request channel outer nested).id = .empty :=
      hb.fresh b.dispatches (Nat.le_refl _)
    have haccount := hmeets.account_eq (entering_sound _).inner
    rw [hreceived, hfresh] at haccount
    rw [hs]
    exact haccount

theorem Stirs.account_eq (h : m.Stirs m') (hm : m.Sane)
    (hone : ∀ i, i < m.dispatches → (m.strand i).account = 1) :
    ∀ i, i < m'.dispatches → (m'.strand i).account = 1 := by
  intro i hi
  obtain hstep | ⟨id, wire, hw, rfl⟩ := h.cases
  . cases Nat.lt_or_ge i m.dispatches with
    | inl hold => rw [(hstep.affects hm hold).account_eq, hone i hold]
    | inr hnew => exact (hstep.rears hm i hnew hi).account_eq
  . exact hone i hi

theorem Stirred.account_eq {settings : Settings} (h : Stirred settings m) (hi : i < m.dispatches) :
    (m.strand i).account = 1 := by
  induction h generalizing i with
  | new pages decorators => exact absurd hi (Nat.not_lt_zero i)
  | next hbefore hnext ih => exact hnext.account_eq hbefore.sane (fun _ => ih) i hi

section During

theorem account_startJob? (hstart : m.startJob? = some (job, started)) (i : Nat) :
    (started.strand i).account + job.holds i = (m.strand i).account := by
  unfold Job.holds
  split
  . next hown => rw [strand_startJob?_of_eq hstart hown, Strand.account_fly]
  . next hown => rw [strand_startJob?_of_ne hstart hown, Nat.add_zero]

/-- A job that is not done yet has neither finished its dispatch nor handed it on. -/
theorem account_turn_of_eq (hm : m.Sane) (hfit : m.Fits job.run)
    (hown : job.run.owner.id? = some i) :
    ((m.turn job).1.strand i).account = (m.strand i).account := by
  obtain ⟨es, hstrand, hcase⟩ := keeps_turn (hm.knows hfit)
  rw [hstrand i hown]
  apply Strand.account_note_of_inner
  apply isInner_of_isOfRun
  have hforecast := (@forecast_sound m.settings job).events
  cases hcase with
  | inl hkept =>
    rw [hkept.1]
    exact hforecast
  | inr hclosed => exact fun e he => hforecast e (hclosed.1.subset he)

theorem account_turn_of_ne (hfit : m.Fits job.run) (hown : job.run.owner.id? ≠ some i)
    (hi : i < m.dispatches) : ((m.turn job).1.strand i).account = (m.strand i).account := by
  rw [(acts_turn_of_fits hfit).strand_eq]
  intro hwho
  cases hwho with
  | inl heq => exact hown heq
  | inr hle => exact Nat.not_lt_of_le hle hi

theorem account_turn (hm : m.Sane) (hone : ∀ i, i < m.dispatches → (m.strand i).account = 1)
    (hstart : m.startJob? = some (job, started)) (hi : i < (started.turn job).1.dispatches) :
    ((started.turn job).1.strand i).account + job.holds i = 1 := by
  have hs := hm.startJob? hstart
  have hfit := hm.fits_startJob? hstart
  have hdispatches : started.dispatches = m.dispatches := by
    obtain ⟨rest, -, rfl⟩ := startJob?_eq_some hstart
    rfl
  cases Nat.lt_or_ge i started.dispatches with
  | inl hold =>
    have hsame : ((started.turn job).1.strand i).account = (started.strand i).account := by
      cases Decidable.em (job.run.owner.id? = some i) with
      | inl hown => exact account_turn_of_eq hs hfit hown
      | inr hown => exact account_turn_of_ne hfit hown hold
    rw [hsame, account_startJob? hstart]
    exact hone i (hdispatches ▸ hold)
  | inr hnew =>
    rw [(rears_turn hs hfit i hnew hi).account_eq, Job.holds, if_neg]
    intro hown
    exact Nat.not_lt_of_le hnew (hfit.id_lt hown)

end During

variable {settings : Settings}

/--
Whatever panics and whatever the channels do, a dispatch that was started is queued, or runs, or is
parked, or was finished once, and only one of these; and no run is completed twice.
-/
theorem Stirred.completes_exactly_once (h : Stirred settings m) :
    (∀ i, i < m.dispatches → m.queued i + m.parked i + m.finishes i = 1) ∧
    (∀ job started mid, m.startJob? = some (job, started) →
      mid = started ∨ mid = (started.turn job).1 →
      ∀ i, i < mid.dispatches → mid.queued i + mid.parked i + mid.finishes i + job.holds i = 1) ∧
    (m.pool.waiting = [] → (∀ timer ∈ m.timers, timer.alarm.parked? = none) →
      ∀ i, i < m.dispatches → m.finishes i = 1) ∧
    (∃ l, Books settings m l) ∧
    (∀ l, Books settings m l →
      l.Exact m ∧ l.completed.Nodup ∧ ∀ m', m.Stirs m' → ∃ l', l.Follows m m' l') := by
  have hone : ∀ i, i < m.dispatches → m.queued i + m.parked i + m.finishes i = 1 := by
    intro i hi
    rw [← account_strand]
    exact h.account_eq hi
  refine ⟨hone, ?_, ?_, h.exists_books, ?_⟩
  . intro job started mid hstart hmid i hi
    rw [← account_strand]
    cases hmid with
    | inl hstarted =>
      subst hstarted
      rw [account_startJob? hstart]
      obtain ⟨rest, -, rfl⟩ := startJob?_eq_some hstart
      exact h.account_eq hi
    | inr hturned =>
      subst hturned
      exact account_turn h.sane (fun _ => h.account_eq) hstart hi
  . intro hwaiting htimers i hi
    have hqueued : m.queued i = 0 := by rw [queued, hwaiting]; rfl
    have hparked : m.parked i = 0 := by
      rw [parked, List.countP_eq_zero]
      intro timer hmem
      rw [Alarm.flight?_of_parked? (htimers timer hmem)]
      exact Bool.false_ne_true
    have := hone i hi
    omega
  . intro l hbooks
    exact ⟨hbooks.exact, hbooks.exact.completed_nodup,
      fun _ => hbooks.exact.exists_follows h.sane⟩

/-- A unit that waits, and then one that panics when it is asked for its name. -/
def stumblingPage : Page where
  name := "Stumble"
  build _ := .pure (.ok ⟨"Stumble", [
    .unit ⟨.ok "Wait",
      fun _ => ⟨[], .empty, [], .deferred ⟨some 5, false, .ok ⟨.consumed [] false, none⟩⟩⟩⟩,
    .unit ⟨.error .other, fun _ => .decide .rejected⟩]⟩)

def waiting : Machine :=
  ((single .plain [stumblingPage]).dispatch (.new .zero .get "/") 0 0 false).settle 1

def stumbled : Machine := ((waiting.close 0).rewire 0 ⟨.new, none⟩).settle 8

theorem stirred_waiting : Stirred .plain waiting :=
  (reachable_single .plain [stumblingPage]).stirred.reaches
    ((Relation.ReflTransGen.single (.dispatch _ Nat.zero_lt_one)).trans (reaches_settle _ 1))

theorem stirred_stumbled : Stirred .plain stumbled :=
  ((stirred_waiting.next (.calm (.close 0))).next (.calm (.rewire 0 rfl))).reaches
    (reaches_settle _ 8)

theorem finishes_of_stumbled :
    waiting.parked 0 = 1 ∧ waiting.finishes 0 = 0 ∧ stumbled.finishes 0 = 1 := by
  have hwaiting := (Stirred.completes_exactly_once stirred_waiting).1 0 (by decide)
  have hparked : waiting.parked 0 = 1 := rfl
  have hstumbled := (Stirred.completes_exactly_once stirred_stumbled).2.2.1 rfl
    (List.forall_mem_nil _) 0 (by decide)
  refine ⟨hparked, ?_, hstumbled⟩
  omega

end Machine
end PageDispatch
