import PageDispatch.Proofs.Dispatch.Passage
import PageDispatch.Proofs.Dispatch.Story
import PageDispatch.Proofs.Run.Lifetime

/-!
This module contains the course of a dispatch among decorators that come and go by: every page finds
those that are there when it is built. Whatever happens around the dispatch, it keeps to this
course, unless it ends without a response since its channel was closed.
-/

namespace PageDispatch

def Fate.tried (fate : Fate) : Nat := (fate.dispatch?.map Dispatch.tried).getD 0

section

variable (settings : Settings) (found : Nat → List Decorator)

/-- How far a dispatch is after some steps, if these are the decorators that its pages find. -/
def Prospect.guided (p : Prospect) : Nat → Prospect
  | 0 => p
  | steps + 1 => (p.guided steps).next settings (found (p.guided steps).fate.tried)

end

section

variable {settings : Settings} {found : Nat → List Decorator} {decorators : List Decorator}
  {first d : Dispatch} {fate : Fate} {p : Prospect}

theorem Fate.tried_eq (h : fate.dispatch? = some d) : fate.tried = d.tried := by
  unfold tried
  rw [h]
  rfl

/-- The decorators make no difference unless a page is built, the next one of the dispatch. -/
theorem Fate.next_cases (settings : Settings) (fate : Fate) (decorators : List Decorator) :
    (∀ others, fate.next settings others = fate.next settings decorators) ∨
    ∃ d page, fate.dispatch? = some d ∧ d.pages[d.tried]? = some page ∧
      (fate.next settings decorators).events.filterMap Event.built? ≠ [] := by
  cases fate with
  | answers d disposition r => exact .inl fun _ => rfl
  | abandons d => exact .inl fun _ => rfl
  | flies f =>
    cases f with
    | parked s closes outer r => exact .inl fun _ => rfl
    | queued job =>
      cases howner : job.run.owner with
      | caller =>
        apply Or.inl
        intro others
        simp only [Fate.next, howner]
      | dispatch d =>
        have hnext : ∀ decorators, Fate.next settings decorators (.flies (.queued job))
            = job.prospect settings decorators d := fun _ => next_queued howner
        simp only [hnext]
        unfold Job.prospect
        generalize job.forecast settings = f
        obtain ⟨es, progress⟩ := f
        cases progress with
        | continues later => exact .inl fun _ => rfl
        | suspended s plan => exact .inl fun _ => rfl
        | escaped => exact .inl fun _ => rfl
        | ended result =>
          cases result with
          | answered a => exact .inl fun _ => rfl
          | abandoned evaluated => exact .inl fun _ => rfl
          | rejected evaluated rejecter =>
            have htries := @advancing_tries settings decorators d
            unfold Progress.prospect Dispatch.completing
            dsimp only
            generalize hp : d.advancing settings decorators = p at htries
            cases htries with
            | misses hpage =>
              apply Or.inl
              intro others
              rw [← hp]
              unfold Dispatch.advancing
              rw [hpage]
            | starts hpage howner' =>
              refine .inr ⟨d, _, dispatch?_flies howner, hpage, ?_⟩
              simp [Prospect.after, Event.built?]
            | breaks hpage hd =>
              refine .inr ⟨d, _, dispatch?_flies howner, hpage, ?_⟩
              simp [Prospect.after, Event.built?]

namespace Prospect

theorem guided_succ (steps : Nat) :
    p.guided settings found (steps + 1)
      =
    (p.guided settings found steps).next settings
      (found (p.guided settings found steps).fate.tried) := rfl

theorem guided_add (steps more : Nat) :
    p.guided settings found (steps + more)
      =
    (p.guided settings found steps).guided settings found more := by
  induction more with
  | zero => rfl
  | succ more ih =>
    rw [← Nat.add_assoc]
    rw [guided_succ]
    rw [ih]
    rfl

theorem guided_over {steps : Nat} (h : p.fate.isOver = true) :
    p.guided settings found steps = p := by
  induction steps with
  | zero => rfl
  | succ steps ih =>
    rw [guided_succ]
    rw [ih]
    apply next_of_isOver h

/-- A course ends only once. -/
theorem guided_eq_of_isOver {steps other : Nat}
    (h : (p.guided settings found steps).fate.isOver = true)
    (h' : (p.guided settings found other).fate.isOver = true) :
    p.guided settings found other = p.guided settings found steps := by
  rw [← @guided_over settings found _ other h]
  rw [← @guided_over settings found _ steps h']
  rw [← guided_add, ← guided_add, Nat.add_comm]

theorem events_prefix_guided (p : Prospect) (settings : Settings) (found : Nat → List Decorator)
    (steps : Nat) : p.events <+: (p.guided settings found steps).events := by
  induction steps with
  | zero => apply List.prefix_refl
  | succ steps ih =>
    apply ih.trans
    apply List.prefix_append

theorem Sound.guided (h : p.Sound d) (steps : Nat) : (p.guided settings found steps).Sound d := by
  induction steps with
  | zero => assumption
  | succ steps ih => apply ih.next

theorem Tracks.guided (h : p.Tracks first) (steps : Nat) :
    (p.guided settings found steps).Tracks first := by
  induction steps with
  | zero => assumption
  | succ steps ih => apply ih.next

/-- The page that is built next comes after those that were built. -/
theorem Tracks.length_built {page : Page} (h : p.Tracks first) (hd : p.fate.dispatch? = some d)
    (hpage : d.pages[d.tried]? = some page) :
    (p.events.filterMap Event.built?).length = p.fate.tried := by
  have ht := h.tracks hd
  have hlt := (List.getElem?_eq_some_iff.mp hpage).1
  rw [ht.built, Fate.tried_eq hd]
  rw [← ht.follows.pages_eq]
  rw [List.length_map, List.length_take]
  omega

end Prospect

end

namespace Machine

variable {settings : Settings} {found : Nat → List Decorator} {m n : Machine} {i : Nat}
  {channel : ChannelId} {request : Request} {first d : Dispatch} {p : Prospect}

/-- A step takes a dispatch along its course with the decorators that are found by then. -/
theorem Leads.guided (h : m.Leads settings n i channel request p)
    (hs : (m.strand i).Shows i channel request p) (hp : p.Sound d) (ht : p.Tracks first)
    (hfound : n.built i ≠ m.built i → ∀ job started, m.startJob? = some (job, started) →
      (started.turn job).1.decorators = found (m.built i).length) :
    (n.strand i).Shows i channel request p ∨
    (n.strand i).Shows i channel request (p.next settings (found p.fate.tried)) ∨
    n.isOpen channel = false ∧ (n.strand i).Mute i := by
  cases h with
  | stays h => exact .inl h
  | wakes h => exact .inr (.inl (h _))
  | falls hc h => exact .inr (.inr ⟨hc, h⟩)
  | @works started job hstart hbefore hafter h =>
    apply Or.inr
    apply Or.inl
    generalize hturn : (started.turn job).1.decorators = decorators at h
    cases Fate.next_cases settings p.fate decorators with
    | inl hsame =>
      unfold Prospect.next
      rw [hsame]
      exact h
    | inr hbuilds =>
      -- the page is built in this very step, so it finds what the machine has by then
      obtain ⟨d', page, hd', hpage, hbuilt⟩ := hbuilds
      have hm := (follows_of_shows hs hp.inner).story
      have hn := (follows_of_shows h hp.next.inner).story
      have hne : n.built i ≠ m.built i := by
        unfold built
        rw [hm, hn]
        unfold Prospect.next Prospect.after
        rw [List.filterMap_append]
        intro heq
        exact hbuilt (List.append_right_eq_self.mp heq)
      have hlength : (m.built i).length = p.fate.tried := by
        unfold built
        rw [hm]
        apply ht.length_built hd' hpage
      rw [← hlength, ← hfound hne job started hstart, hturn]
      exact h

theorem built_prefix (h : m.journal <+: n.journal) (i : Nat) : m.built i <+: n.built i :=
  (h.filter _).filterMap _

/-- A dispatch builds no page unless it is on its way. -/
theorem Affects.built_eq (h : m.Affects n i) (hs : (m.strand i).flights = 0) :
    n.built i = m.built i := by
  have hnote : ∀ {rest : Strand} {e : Event}, e.isInner = false →
      ((rest.note [e]).events.filter Event.isInner).filterMap Event.built?
        = (rest.events.filter Event.isInner).filterMap Event.built? := by
    intro rest e he
    unfold Strand.note
    rw [List.filter_append, List.filter_singleton, he]
    simp
  unfold built
  rw [story_eq, story_eq]
  cases h with
  | idle h => rw [h]
  | worked decorators hstrand =>
    rw [hstrand] at hs
    exact absurd hs Strand.flights_fly_ne
  | woke hstrand =>
    rw [hstrand] at hs
    exact absurd hs Strand.flights_fly_ne
  | sent hstrand hstrand' =>
    rw [hstrand, hstrand']
    apply hnote rfl
  | withheld hstrand hstrand' =>
    rw [hstrand, hstrand']
    apply hnote rfl

/-- Nothing is sent any more for a dispatch that has ended. -/
theorem Affects.mute (h : m.Affects n i)
    (hs : (m.strand i).Mute i) : (n.strand i).Mute i := by
  have hflights := hs.flights
  have hdue := hs.due
  cases h with
  | idle h =>
    rw [h]
    exact hs
  | worked decorators hstrand =>
    rw [hstrand] at hflights
    exact absurd hflights Strand.flights_fly_ne
  | woke hstrand =>
    rw [hstrand] at hflights
    exact absurd hflights Strand.flights_fly_ne
  | sent hstrand =>
    rw [hstrand] at hdue
    exact absurd hdue Strand.due_owe_ne
  | withheld hstrand =>
    rw [hstrand] at hdue
    exact absurd hdue Strand.due_owe_ne

end Machine

namespace Entry

open Machine

def arrival (e : Entry) : Dispatch := e.engine.newDispatch e.request e.channel e.outer e.nested

/-- What a dispatch sets out with, if its first page finds these decorators. -/
def outset (e : Entry) (decorators : List Decorator) : Prospect :=
  e.arrival.entering e.engine.settings decorators (!e.engine.pool.isFull)

/-- Whether these are the decorators that the pages of a dispatch found on the way to a machine. -/
inductive Finds (found : Nat → List Decorator) (e : Entry) : Machine → Prop
  | enters {n : Machine} (he : e.engine.Sane) (hc : e.channel < e.engine.wires.length)
    (hn : n.Sane) (hg : e.entered.Grows n) (hs : n.strand e.id = e.entered.strand e.id)
    (hfound : e.engine.decorators = found 0) : Finds found e n
  | stirs {m n : Machine} (h : Finds found e m) (hnext : m.Stirs n)
    (hfound : n.built e.id ≠ m.built e.id → ∀ job started, m.startJob? = some (job, started) →
      (started.turn job).1.decorators = found (m.built e.id).length) : Finds found e n

variable {e : Entry} {found : Nat → List Decorator} {m n : Machine} {d : Dispatch}

theorem outset_sound (e : Entry) (found : Nat → List Decorator) (steps : Nat) :
    ((e.outset (found 0)).guided e.engine.settings found steps).Sound e.arrival :=
  (entering_sound _).guided steps

theorem outset_tracks (e : Entry) (found : Nat → List Decorator) (steps : Nat) :
    ((e.outset (found 0)).guided e.engine.settings found steps).Tracks e.arrival :=
  (entering_tracks rfl _).guided steps

theorem acts_entered (hc : e.channel < e.engine.wires.length) :
    Acts (fun _ => True) e.engine e.entered :=
  @acts_dispatch e.engine (fun _ => True) e.outer e.channel trivial hc e.request e.nested

theorem Finds.sane (h : e.Finds found n) : n.Sane := by
  induction h with
  | enters he hc hn hg hs hfound => exact hn
  | stirs _ hnext hfound ih => exact hnext.sane ih

theorem Finds.settings_eq (h : e.Finds found n) : n.settings = e.engine.settings := by
  induction h with
  | enters he hc hn hg hs hfound => exact hg.settings.trans (acts_entered hc).grows.settings
  | stirs hbefore hnext hfound ih => exact (hnext.settings_eq hbefore.sane).trans ih

theorem Finds.id_lt (h : e.Finds found n) : e.id < n.dispatches := by
  induction h with
  | enters he hc hn hg hs hfound =>
    have hentered : e.id < e.entered.dispatches := by
      unfold Entry.entered
      rw [dispatches_dispatch e.request e.nested hc]
      apply Nat.lt_succ_self
    apply Nat.lt_of_lt_of_le hentered hg.dispatches
  | stirs hbefore hnext hfound ih =>
    apply Nat.lt_of_lt_of_le ih
    apply hnext.dispatches_le hbefore.sane

theorem Finds.channel_lt (h : e.Finds found n) : e.channel < n.wires.length := by
  induction h with
  | enters he hc hn hg hs hfound =>
    apply Nat.lt_of_lt_of_le hc
    exact Nat.le_trans (acts_entered hc).grows.wires hg.wires
  | stirs hbefore hnext hfound ih =>
    apply Nat.lt_of_lt_of_le ih
    apply hnext.length_wires_le hbefore.sane

/-- A dispatch keeps to its course, unless its channel is closed and nothing is sent. -/
theorem Finds.shows_or_mute (h : e.Finds found n) :
    (∃ steps, (n.strand e.id).Shows e.id e.channel e.request
      ((e.outset (found 0)).guided e.engine.settings found steps)) ∨
      .closed e.channel ∈ n.journal ∧ (n.strand e.id).Mute e.id := by
  induction h with
  | @enters n he hc hn hg hs hfound =>
    rw [hs, ← hfound]
    cases @dispatch_shows_or_mute e.engine e.channel e.request e.outer e.nested he with
    | inl hshows => exact .inl ⟨0, hshows⟩
    | inr hmute =>
      have hacts := acts_entered hc
      have hlt := Nat.lt_of_lt_of_le hc hacts.grows.wires
      have hclosed := (hacts.sane he).honest.closed e.channel hlt hmute.1
      exact .inr ⟨hg.journal.subset hclosed, hmute.2⟩
  | @stirs m n hbefore hnext hfound ih =>
    obtain hstep | ⟨id, wire, hw, rfl⟩ := hnext.cases
    . have haffects := hstep.affects hbefore.sane hbefore.id_lt
      cases ih with
      | inr hmute =>
        have hjournal := hnext.journal_prefix hbefore.sane
        exact .inr ⟨hjournal.subset hmute.1, haffects.mute hmute.2⟩
      | inl hshows =>
        obtain ⟨steps, hshows⟩ := hshows
        have hp := e.outset_sound found steps
        have ht := e.outset_tracks found steps
        have hleads := haffects.leads hshows hp rfl hbefore.settings_eq
        obtain hstays | hgoes | hmute := hleads.guided hshows hp ht hfound
        . exact .inl ⟨steps, hstays⟩
        . exact .inl ⟨steps + 1, hgoes⟩
        . have hn := hbefore.stirs hnext hfound
          exact .inr ⟨hn.sane.honest.closed e.channel hn.channel_lt hmute.1, hmute.2⟩
    . exact ih

/-- A response that was sent, or waits for the end of its delay, is where the course ends. -/
theorem Finds.exists_answers (h : e.Finds found n) {x : ChannelId × Response}
    (hx : x ∈ n.responses e.id) :
    ∃ steps d disposition,
      ((e.outset (found 0)).guided e.engine.settings found steps).fate
        = .answers d disposition x.2 := by
  cases h.shows_or_mute with
  | inl hshows =>
    obtain ⟨steps, hshows⟩ := hshows
    have hfollows := follows_of_shows hshows (e.outset_sound found steps).inner
    rw [hfollows.responses] at hx
    refine ⟨steps, ?_⟩
    generalize ((e.outset (found 0)).guided e.engine.settings found steps).fate = fate at hx
    cases fate with
    | flies f => cases hx
    | abandons d => cases hx
    | answers d disposition r =>
      rw [List.mem_singleton.mp hx]
      exact ⟨d, disposition, rfl⟩
  | inr hmute =>
    have hsends : n.sends e.id = [] := by
      rw [sends_eq]
      apply hmute.2.sends
    have howes : n.owes e.id = [] := (Multiset.coe_eq_zero _).mp hmute.2.due
    unfold responses at hx
    rw [hsends, howes] at hx
    cases hx

/-- A dispatch that has ended has sent what its course ends in, unless its channel was closed. -/
theorem Finds.exists_mem_responses (h : e.Finds found n) (hfinished : n.Finished e.id)
    (hopen : .closed e.channel ∉ n.journal) {steps : Nat} {disposition : Disposition}
    {r : Response}
    (hr : ((e.outset (found 0)).guided e.engine.settings found steps).fate
      = .answers d disposition r) : ∃ x ∈ n.responses e.id, x.2 = r := by
  cases h.shows_or_mute with
  | inr hmute => exact absurd hmute.1 hopen
  | inl hshows =>
    obtain ⟨last, hshows⟩ := hshows
    obtain ⟨nested, summary, hmem⟩ := hfinished
    have hfollows := follows_of_shows hshows (e.outset_sound found last).inner
    obtain ⟨now, hsummary⟩ := hfollows.summary nested summary hmem
    have hover := Fate.isOver_of_summary? hsummary
    have hsame := Prospect.guided_eq_of_isOver hover (by rw [hr]; rfl)
    rw [hsame] at hr
    rw [hfollows.responses, hr]
    exact ⟨_, List.mem_singleton_self _, rfl⟩

/-- The decorators make no difference as long as no page is built. -/
theorem Finds.reaches (h : e.Finds found m) (hreach : m.Reaches n)
    (hbuilt : n.built e.id = m.built e.id) : e.Finds found n := by
  induction hreach with
  | refl => exact h
  | @tail b c hfirst hlast ih =>
    have hb := Reaches.sane hfirst h.sane
    have hbefore := built_prefix hb.2.journal e.id
    have hafter := built_prefix (hlast.sane hb.1).2.journal e.id
    rw [hbuilt] at hafter
    have hsame := (hbefore.eq_of_length_le hafter.length_le).symm
    apply Finds.stirs (ih hsame) hlast.stirs
    intro hne
    rw [hbuilt, hsame] at hne
    exact absurd rfl hne

section Found

variable {found' : Nat → List Decorator}

theorem Finds.congr (h : e.Finds found n)
    (hsame : ∀ k, k = 0 ∨ k < (n.built e.id).length → found' k = found k) : e.Finds found' n := by
  induction h with
  | enters he hc hn hg hs hfound =>
    rw [← hsame 0 (.inl rfl)] at hfound
    exact .enters he hc hn hg hs hfound
  | @stirs m n hbefore hnext hfound ih =>
    have hpre := built_prefix (hnext.journal_prefix hbefore.sane) e.id
    apply Finds.stirs _ hnext
    . intro hne job started hstart
      have hlt : (m.built e.id).length < (n.built e.id).length := by
        apply Nat.lt_of_le_of_ne hpre.length_le
        intro heq
        exact hne (hpre.eq_of_length heq).symm
      rw [hsame _ (.inr hlt)]
      apply hfound hne job started hstart
    . apply ih
      intro k hk
      apply hsame
      apply hk.imp_right
      intro hlt
      apply Nat.lt_of_lt_of_le hlt hpre.length_le

theorem outset_built_ne_nil {decorators : List Decorator}
    (h : (e.outset decorators).fate.isOver = false) :
    (e.outset decorators).events.filterMap Event.built? ≠ [] := by
  unfold outset Dispatch.entering at h ⊢
  split at h
  . next hadmitted =>
    rw [if_pos hadmitted]
    have htries := @advancing_tries e.engine.settings decorators e.arrival
    generalize e.arrival.advancing e.engine.settings decorators = p at h htries
    cases htries with
    | misses hpage => cases h
    | starts hpage howner => simp [Event.built?]
    | breaks hpage hd => cases h
  . cases h

/-- Only a dispatch that has built a page builds another one. -/
theorem Finds.built_ne_nil (h : e.Finds found m) (hnext : m.Stirs n)
    (hne : n.built e.id ≠ m.built e.id) : m.built e.id ≠ [] := by
  obtain hstep | ⟨id, wire, hw, rfl⟩ := hnext.cases
  . have hflights : (m.strand e.id).flights ≠ 0 := by
      intro hnone
      exact hne ((hstep.affects h.sane h.id_lt).built_eq hnone)
    cases h.shows_or_mute with
    | inr hmute => exact absurd hmute.2.flights hflights
    | inl hshows =>
      obtain ⟨steps, hshows⟩ := hshows
      have hstory := (follows_of_shows hshows (e.outset_sound found steps).inner).story
      have hstarts : (e.outset (found 0)).fate.isOver = false := by
        rw [Bool.eq_false_iff]
        intro hover
        rw [Prospect.guided_over hover] at hshows
        generalize e.outset (found 0) = p at hover hshows
        generalize m.strand e.id = s at hshows hflights
        cases hshows with
        | flies => cases hover
        | owed now => exact hflights rfl
        | sent now hlast => exact hflights rfl
        | abandoned now => exact hflights rfl
      have hpre := ((e.outset (found 0)).events_prefix_guided e.engine.settings found
        steps).filterMap Event.built?
      unfold built
      rw [hstory]
      intro hnil
      rw [hnil] at hpre
      exact outset_built_ne_nil hstarts (List.prefix_nil.mp hpre)
  . exact absurd rfl hne

/-- Whatever decorators there are on the way of a dispatch, its pages find some of them. -/
theorem Finds.exists_next (h : e.Finds found m) (hnext : m.Stirs n) :
    ∃ found', e.Finds found' n := by
  cases Classical.em (n.built e.id = m.built e.id) with
  | inl hsame => exact ⟨found, .stirs h hnext fun hne => absurd hsame hne⟩
  | inr hne =>
    have hpos := List.length_pos_iff.mpr (h.built_ne_nil hnext hne)
    cases hstart : m.startJob? with
    | none =>
      refine ⟨found, .stirs h hnext ?_⟩
      intro _ job started hsome
      rw [hstart] at hsome
      cases hsome
    | some start =>
      -- no page before this one looks at the value that is exchanged
      refine ⟨Function.update found (m.built e.id).length
        (start.2.turn start.1).1.decorators, ?_⟩
      apply Finds.stirs _ hnext
      . intro _ job started hsome
        rw [hstart] at hsome
        cases hsome
        rw [Function.update_self]
      . apply h.congr
        intro k hk
        apply Function.update_of_ne
        omega

end Found

end Entry

/-- The pages of every dispatch found some decorators. -/
theorem Machine.Stirred.exists_finds {settings : Settings} {m : Machine} {i : Nat}
    (h : Stirred settings m) (hi : i < m.dispatches) :
    ∃ (e : Entry) (found : Nat → List Decorator), e.id = i ∧ e.Finds found m := by
  apply h.of_begets _ _ hi
  . intro n n' i hn hbegets
    cases hbegets with
    | @intro b channel outer request nested hb hg hid hc hs hg' =>
      subst hid
      refine ⟨⟨b, request, channel, outer, nested⟩, fun _ => b.decorators, rfl, ?_⟩
      exact .enters hb hc hn.sane hg' hs rfl
  . intro n n' i hnext hold
    obtain ⟨e, found, hid, he⟩ := hold
    obtain ⟨found', hfinds⟩ := he.exists_next hnext
    exact ⟨e, found', hid, hfinds⟩

end PageDispatch
