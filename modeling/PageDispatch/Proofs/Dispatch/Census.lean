import PageDispatch.Proofs.Dispatch.Birth
import PageDispatch.Proofs.Dispatch.Outlook

/-!
This module contains the books of a dispatch: as long as it is busy, exactly one run of it waits,
and nothing was sent; once it is finished no run waits, and its response is owed, sent or withheld,
if it has one.
-/

namespace PageDispatch

/-- Whether an event is neither the arrival nor the end of a dispatch. -/
def Event.isInner : Event → Bool
  | received _ _ _ | sending _ _ _ | withheld _ _ _ | finished _ _ _ => false
  | _ => true

theorem isInner_of_isOfRun {es : List Event} (h : ∀ e ∈ es, e.isOfRun = true) :
    ∀ e ∈ es, e.isInner = true := by
  intro e he
  have hrun := h e he
  cases e <;> first | rfl | cases hrun

/-- Whether a dispatch is another one at a later time, with more pages tried. -/
def Dispatch.Follows (later d : Dispatch) : Prop :=
  ∃ tried current, later = { d with tried, current }

inductive Fate.After (d : Dispatch) (es : List Event) : Fate → Prop
  | flies {f : Flight} {later : Dispatch} (howner : f.run.owner = .dispatch later)
    (h : later.Follows d) : After d es (.flies f)
  | answers {later : Dispatch} {disposition : Disposition} {r : Response} (h : later.Follows d)
    (hd : disposition ≠ .abandoned) : After d es (.answers later disposition r)
  | abandons {later : Dispatch} (h : later.Follows d) (hes : .escaped (some d.id) ∈ es) :
    After d es (.abandons later)

structure Prospect.Sound (d : Dispatch) (p : Prospect) : Prop where
  inner : ∀ e ∈ p.events, e.isInner = true
  fate : p.fate.After d p.events

namespace Dispatch

variable {d later last : Dispatch}

theorem Follows.refl (d : Dispatch) : d.Follows d := ⟨d.tried, d.current, rfl⟩

theorem Follows.trans (h : last.Follows later) (h' : later.Follows d) : last.Follows d := by
  obtain ⟨tried, current, rfl⟩ := h
  obtain ⟨_, _, rfl⟩ := h'
  exact ⟨tried, current, rfl⟩

theorem Follows.id_eq (h : later.Follows d) : later.id = d.id := by
  obtain ⟨_, _, rfl⟩ := h
  rfl

theorem Follows.channel_eq (h : later.Follows d) : later.channel = d.channel := by
  obtain ⟨_, _, rfl⟩ := h
  rfl

theorem follows_trying (d : Dispatch) (page : Page) : (d.trying page).Follows d := ⟨_, _, rfl⟩

end Dispatch

namespace Fate

variable {d later : Dispatch} {es es' : List Event} {f : Fate}

theorem After.of_follows (h : f.After later es) (hd : later.Follows d) : f.After d es := by
  cases h with
  | flies howner h => exact .flies howner (h.trans hd)
  | answers h hne => exact .answers (h.trans hd) hne
  | abandons h hes =>
    rw [hd.id_eq] at hes
    exact .abandons (h.trans hd) hes

theorem After.of_subset (h : f.After d es) (hsub : ∀ e ∈ es, e ∈ es') : f.After d es' := by
  cases h with
  | flies howner h => exact .flies howner h
  | answers h hne => exact .answers h hne
  | abandons h hes => exact .abandons h (hsub _ hes)

end Fate

namespace Prospect

variable {d later : Dispatch} {p : Prospect} {es : List Event}

theorem Sound.after (h : p.Sound d) (hes : ∀ e ∈ es, e.isInner = true) : (p.after es).Sound d where
  inner := List.forall_mem_append.mpr ⟨hes, h.inner⟩
  fate := h.fate.of_subset (fun _ he => List.mem_append_right _ he)

theorem Sound.of_follows (h : p.Sound later) (hd : later.Follows d) : p.Sound d :=
  ⟨h.inner, h.fate.of_follows hd⟩

theorem sound_of_fate {f : Fate} (h : f.After d []) : Sound d ⟨[], f⟩ := by
  refine ⟨?_, h⟩
  intro e he
  cases he

end Prospect

section

variable {settings : Settings} {decorators : List Decorator} {d : Dispatch} {p : Prospect}

theorem tries_sound (h : d.Tries p) : p.Sound d := by
  cases h with
  | misses hnone =>
    apply Prospect.sound_of_fate
    apply Fate.After.answers
    . exact ⟨d.tried, none, rfl⟩
    . simp
  | starts hpage howner =>
    constructor
    . simp [Event.isInner]
    . apply Fate.After.flies howner
      apply Dispatch.follows_trying
  | breaks hpage hd =>
    constructor
    . simp [Event.isInner]
    . apply Fate.After.answers _ hd
      apply Dispatch.follows_trying

theorem entering_sound (admitted : Bool) : (d.entering settings decorators admitted).Sound d := by
  cases admitted with
  | true => apply tries_sound advancing_tries
  | false =>
    apply Prospect.sound_of_fate
    apply Fate.After.answers
    . apply Dispatch.Follows.refl
    . simp

theorem takes_sound {run : Run} (h : d.Takes settings decorators run p)
    (howner : run.owner = .dispatch d) : p.Sound d := by
  cases h with
  | goes hes hf =>
    constructor
    . apply isInner_of_isOfRun
      apply isOfRun_of_isEffort hes
    . apply Fate.After.flies (hf.owner.trans howner)
      apply Dispatch.Follows.refl
  | answers hes hd =>
    constructor
    . apply isInner_of_isOfRun hes
    . apply Fate.After.answers _ hd
      apply Dispatch.Follows.refl
  | @escapes es hes =>
    have hinner := isInner_of_isOfRun (isOfRun_of_isEffort hes)
    constructor
    . dsimp only
      rw [List.forall_mem_append]
      refine ⟨hinner, ?_⟩
      simp [Event.isInner]
    . apply Fate.After.abandons
      . apply Dispatch.Follows.refl
      . simp
  | @falls es hes hlocked =>
    have hinner := isInner_of_isOfRun (isOfRun_of_isEffort hes)
    apply (tries_sound advancing_tries).after
    rw [List.forall_mem_append]
    refine ⟨hinner, ?_⟩
    simp [Event.isInner]

/-- As long as its channel is open, a dispatch is given up only if foreign code escapes. -/
theorem prospect_sound {job : Job} (howner : job.run.owner = .dispatch d) :
    (job.prospect settings decorators d).Sound d := by
  apply takes_sound (prospect_takes job)
  assumption

end

/-- What the events of a dispatch end in once its response was sent or withheld. -/
inductive Strand.Closing (closed : Prop) (i : Nat) (channel : ChannelId) (r : Response)
    (last : Event) : List Event → Prop
  | sent : Closing closed i channel r last [.sending i channel r, last]
  | withheld (hc : closed) : Closing closed i channel r last [.withheld i channel r, last]
  | sentLater : Closing closed i channel r last [last, .sending i channel r]
  | withheldLater (hc : closed) : Closing closed i channel r last [last, .withheld i channel r]

/-- The books of a dispatch; `closed` says that its channel is closed. -/
inductive Strand.Tells (closed : Prop) (i : Nat) (channel : ChannelId) (request : Request) :
    Strand → Prop
  | busy {f : Flight} {d : Dispatch} {es : List Event} (howner : f.run.owner = .dispatch d)
    (hid : d.id = i) (hch : d.channel = channel) (hes : ∀ e ∈ es, e.isInner = true) :
    Tells closed i channel request ⟨{f}, 0, .received i channel request :: es⟩
  | abandoned {es : List Event} {nested : Bool} {summary : DispatchSummary}
    (hes : ∀ e ∈ es, e.isInner = true) (hd : summary.disposition = .abandoned)
    (hs : summary.status = none) (hc : closed ∨ .escaped (some i) ∈ es) :
    Tells closed i channel request
      ⟨0, 0, .received i channel request :: (es ++ [.finished i nested summary])⟩
  | pending {es : List Event} {nested : Bool} {summary : DispatchSummary} {r : Response}
    (hes : ∀ e ∈ es, e.isInner = true) (hd : summary.disposition ≠ .abandoned)
    (hs : summary.status = some r.status) :
    Tells closed i channel request
      ⟨0, {(channel, r)}, .received i channel request :: (es ++ [.finished i nested summary])⟩
  | answered {es last : List Event} {nested : Bool} {summary : DispatchSummary} {r : Response}
    (hes : ∀ e ∈ es, e.isInner = true) (hd : summary.disposition ≠ .abandoned)
    (hs : summary.status = some r.status)
    (hlast : Closing closed i channel r (.finished i nested summary) last) :
    Tells closed i channel request ⟨0, 0, .received i channel request :: (es ++ last)⟩

namespace Strand

variable {closed closed' : Prop} {i : Nat} {channel : ChannelId} {request : Request}
  {s s' : Strand}

theorem Tells.received_mem (h : s.Tells closed i channel request) :
    .received i channel request ∈ s.events := by
  cases h <;> exact List.mem_cons_self

theorem Closing.of_imp {r : Response} {e : Event} {last : List Event}
    (h : Closing closed i channel r e last) (hc : closed → closed') :
    Closing closed' i channel r e last := by
  cases h with
  | sent => exact .sent
  | withheld hclosed => exact .withheld (hc hclosed)
  | sentLater => exact .sentLater
  | withheldLater hclosed => exact .withheldLater (hc hclosed)

theorem Tells.of_imp (h : s.Tells closed i channel request) (hc : closed → closed') :
    s.Tells closed' i channel request := by
  cases h with
  | busy howner hid hch hes => exact .busy howner hid hch hes
  | abandoned hes hd hs hc' => exact .abandoned hes hd hs (hc'.imp hc id)
  | pending hes hd hs => exact .pending hes hd hs
  | answered hes hd hs hlast => exact .answered hes hd hs (hlast.of_imp hc)

theorem tells_of_leaves {d : Dispatch} {fate : Fate} {es es' : List Event} (hid : d.id = i)
    (hch : d.channel = channel) (hes : ∀ e ∈ es ++ es', e.isInner = true)
    (hfate : fate.After d es')
    (h : fate.Leaves closed ⟨0, 0, .received i channel request :: (es ++ es')⟩ s') :
    s'.Tells closed i channel request := by
  cases hfate with
  | @flies f later howner hfollows =>
    cases h with
    | flies f => exact .busy howner (hfollows.id_eq.trans hid) (hfollows.channel_eq.trans hch) hes
  | answers hfollows hne =>
    cases h with
    | answers now hdelivers =>
      have hid' := hfollows.id_eq.trans hid
      have hch' := hfollows.channel_eq.trans hch
      cases hdelivers with
      | later hr =>
        rw [hid', hch']
        exact .pending hes hne rfl
      | sent hr =>
        rw [hid', hch', note_note]
        exact .answered hes hne rfl .sent
      | withheld hr hc =>
        rw [hid', hch', note_note]
        exact .answered hes hne rfl (.withheld hc)
  | abandons hfollows hmem =>
    cases h with
    | abandons later now =>
      rw [hid] at hmem
      rw [hfollows.id_eq.trans hid]
      exact .abandoned hes rfl rfl (.inr (List.mem_append_right _ hmem))

theorem tells_of_abandons {later : Dispatch} {es es' : List Event} (hid : later.id = i)
    (hes : ∀ e ∈ es ++ es', e.isInner = true) (hc : closed)
    (h : (Fate.abandons later).Leaves closed ⟨0, 0, .received i channel request :: (es ++ es')⟩ s') :
    s'.Tells closed i channel request := by
  cases h with
  | abandons later now =>
    rw [hid]
    exact .abandoned hes rfl rfl (.inl hc)

theorem add_singleton_ne_zero {α : Type} (s : Multiset α) (a : α) : s + {a} ≠ 0 := by
  rw [add_comm, Multiset.singleton_add]
  exact Multiset.cons_ne_zero

theorem eq_of_add_singleton_eq {α : Type} {s : Multiset α} {a b : α} (h : s + {a} = {b}) :
    s = 0 ∧ a = b := by
  have hcard := congrArg Multiset.card h
  simp only [Multiset.card_add, Multiset.card_singleton] at hcard
  have hzero : s = 0 := Multiset.card_eq_zero.mp (by omega)
  rw [hzero, zero_add] at h
  exact ⟨hzero, Multiset.singleton_inj.mp h⟩

theorem Tells.of_fly {rest : Strand} {f : Flight}
    (h : (rest.fly f).Tells closed i channel request) :
    ∃ d es, f.run.owner = .dispatch d ∧ d.id = i ∧ d.channel = channel ∧
      (∀ e ∈ es, e.isInner = true) ∧ rest = ⟨0, 0, .received i channel request :: es⟩ := by
  obtain ⟨flights, due, events⟩ := rest
  unfold fly at h
  dsimp only at h
  generalize hflights : flights + {f} = all at h
  have hne : all ≠ 0 := by
    rw [← hflights]
    exact add_singleton_ne_zero _ _
  cases h with
  | @busy g d es howner hid hch hes =>
    obtain ⟨rfl, rfl⟩ := eq_of_add_singleton_eq hflights
    exact ⟨d, es, howner, hid, hch, hes, rfl⟩
  | abandoned hes hd hs hc => exact absurd rfl hne
  | pending hes hd hs => exact absurd rfl hne
  | answered hes hd hs hlast => exact absurd rfl hne

theorem Tells.of_owe {rest : Strand} {channel' : ChannelId} {r : Response}
    (h : (rest.owe channel' r).Tells closed i channel request) :
    ∃ es nested summary, channel' = channel ∧ (∀ e ∈ es, e.isInner = true) ∧
      summary.disposition ≠ .abandoned ∧ summary.status = some r.status ∧
      rest = ⟨0, 0, .received i channel request :: (es ++ [.finished i nested summary])⟩ := by
  obtain ⟨flights, due, events⟩ := rest
  unfold owe at h
  dsimp only at h
  generalize hdue : due + {(channel', r)} = all at h
  have hne : all ≠ 0 := by
    rw [← hdue]
    exact add_singleton_ne_zero _ _
  cases h with
  | busy howner hid hch hes => exact absurd rfl hne
  | abandoned hes hd hs hc => exact absurd rfl hne
  | @pending es nested summary r' hes hd hs =>
    obtain ⟨rfl, heq⟩ := eq_of_add_singleton_eq hdue
    cases heq
    exact ⟨es, nested, summary, rfl, hes, hd, hs, rfl⟩
  | answered hes hd hs hlast => exact absurd rfl hne

end Strand

namespace Machine

variable {m m' : Machine} {i : Nat} {channel : ChannelId} {request : Request}

def Tells (m : Machine) (i : Nat) (channel : ChannelId) (request : Request) : Prop :=
  (m.strand i).Tells (m.isOpen channel = false) i channel request

theorem mem_journal_of_mem_strand {e : Event} (h : e ∈ (m.strand i).events) : e ∈ m.journal :=
  (List.mem_filter.mp h).1

theorem Meets.tells {d : Dispatch} {told : Prospect} {es : List Event} (h : m.Meets m' d told)
    (hs : m.strand d.id = ⟨0, 0, .received d.id d.channel request :: es⟩)
    (hes : ∀ e ∈ es, e.isInner = true) (htold : told.Sound d) :
    m'.Tells d.id d.channel request := by
  obtain ⟨es', fate, hleaves, hcase⟩ := h
  rw [hs] at hleaves
  change fate.Leaves _ ⟨0, 0, .received d.id d.channel request :: (es ++ es')⟩ _ at hleaves
  cases hcase with
  | inl hkept =>
    obtain ⟨rfl, rfl⟩ := hkept
    apply Strand.tells_of_leaves rfl rfl _ htold.fate hleaves
    rw [List.forall_mem_append]
    exact ⟨hes, htold.inner⟩
  | inr hclosed =>
    -- given up early, the dispatch logged a part of what was foretold
    obtain ⟨hpre, hc, tried, current, rfl⟩ := hclosed
    refine Strand.tells_of_abandons ?_ ?_ hc hleaves
    · rfl
    rw [List.forall_mem_append]
    refine ⟨hes, ?_⟩
    intro e he
    apply htold.inner
    apply hpre.subset he

theorem Affects.tells (h : m.Affects m' i) (hg : m.Grows m') (hm : m.Sane)
    (ht : m.Tells i channel request) : m'.Tells i channel request := by
  have hlt := hm.honest.received _ _ _ (mem_journal_of_mem_strand ht.received_mem)
  have ht' := ht.of_imp (hg.closed channel hlt)
  unfold Tells at ht
  cases h with
  | idle h =>
    unfold Tells
    rw [h]
    exact ht'
  | @worked started job d decorators hs hid howner hbefore hafter hmeets =>
    rw [hs] at ht
    obtain ⟨d', es, howner', hid', hch', hes, hstarted⟩ := ht.of_fly
    have hd : d = d' := by
      have heq := howner.symm.trans howner'
      injection heq
    subst hd hid hch'
    exact hmeets.tells hstarted hes (prospect_sound howner)
  | @woke s closes outer r rest hs hs' =>
    rw [hs] at ht
    obtain ⟨d, es, howner, hid, hch, hes, rfl⟩ := ht.of_fly
    unfold Tells
    rw [hs']
    exact .busy (f := .queued (.resume s r)) howner hid hch hes
  | sent hs hs' =>
    rw [hs] at ht
    obtain ⟨es, nested, summary, rfl, hes, hd, hstatus, rfl⟩ := ht.of_owe
    unfold Tells Strand.note at *
    rw [hs', List.cons_append, List.append_assoc]
    exact .answered hes hd hstatus .sentLater
  | withheld hs hs' hc =>
    rw [hs] at ht
    obtain ⟨es, nested, summary, rfl, hes, hd, hstatus, rfl⟩ := ht.of_owe
    unfold Tells Strand.note at *
    rw [hs', List.cons_append, List.append_assoc]
    exact .answered hes hd hstatus (.withheldLater hc)

theorem Begets.tells (h : m.Begets m' i) : ∃ channel request, m'.Tells i channel request := by
  cases h with
  | @intro b channel outer request nested hb hg hi hc hs hg' =>
    subst hi
    obtain ⟨received, hreceived, hmeets⟩ := @meets_dispatch b _ request channel outer nested rfl
    have hfresh : b.strand (b.newDispatch request channel outer nested).id = .empty :=
      hb.fresh b.dispatches (Nat.le_refl _)
    rw [hfresh] at hreceived
    have ht := hmeets.tells hreceived (fun _ he => nomatch he) (entering_sound _)
    refine ⟨channel, request, ?_⟩
    unfold Tells at ht ⊢
    rw [hs]
    refine ht.of_imp (hg'.closed channel ?_)
    exact Nat.lt_of_lt_of_le hc
      (@acts_dispatch b (fun _ => True) outer channel trivial hc request nested).grows.wires

theorem Reachable.exists_tells {settings : Settings} (h : Reachable settings m)
    (hi : i < m.dispatches) : ∃ channel request, m.Tells i channel request := by
  refine h.of_begets Begets.tells ?_ hi
  intro mid last i hmid hlast hold htells
  obtain ⟨channel, request, ht⟩ := htells
  have hm := hmid.sane.1
  exact ⟨channel, request, (hlast.affects hm hold).tells (hlast.sane hm).2 hm ht⟩

end Machine
end PageDispatch
