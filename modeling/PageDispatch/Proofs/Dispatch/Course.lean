import PageDispatch.Proofs.Dispatch.Wire

/-!
This module contains the course of a dispatch: what it does by itself, one job after the other. As
long as its channel is open, an engine takes the dispatch along its course, whatever else it works
on.
-/

namespace PageDispatch

section

variable (settings : Settings) (decorators : List Decorator)

def Fate.next : Fate → Prospect
  | .flies (.queued job) =>
    match job.run.owner with
    | .caller => ⟨[], .flies (.queued job)⟩
    | .dispatch d => job.prospect settings decorators d
  | .flies (.parked s _ _ r) => ⟨[], .flies (.queued (.resume s r))⟩
  | fate => ⟨[], fate⟩

def Prospect.next (p : Prospect) : Prospect := (p.fate.next settings decorators).after p.events

/-- How far a dispatch is after some jobs of its own, or resolutions that it waited for. -/
def Prospect.course (p : Prospect) : Nat → Prospect
  | 0 => p
  | steps + 1 => (p.course steps).next settings decorators

end

def Fate.isOver : Fate → Bool
  | .flies _ => false
  | _ => true

theorem Fate.next_queued {settings : Settings} {decorators : List Decorator} {job : Job}
    {d : Dispatch} (h : job.run.owner = .dispatch d) :
    Fate.next settings decorators (.flies (.queued job)) = job.prospect settings decorators d := by
  dsimp only [Fate.next]
  rw [h]

namespace Prospect

variable {settings : Settings} {decorators : List Decorator} {p : Prospect} {d : Dispatch}

theorem next_of_isOver (h : p.fate.isOver = true) : p.next settings decorators = p := by
  unfold next
  cases p with
  | mk events fate =>
    cases fate with
    | flies f => cases h
    | answers d disposition r => simp [Fate.next, after]
    | abandons d => simp [Fate.next, after]

theorem course_succ (steps : Nat) : p.course settings decorators (steps + 1)
    = (p.course settings decorators steps).next settings decorators := rfl

theorem next_after (es : List Event) :
    (p.after es).next settings decorators = (p.next settings decorators).after es := by
  unfold next
  rw [after_after]
  rfl

theorem course_after (es : List Event) (steps : Nat) :
    (p.after es).course settings decorators steps
      =
    (p.course settings decorators steps).after es := by
  induction steps with
  | zero => rfl
  | succ steps ih =>
    rw [course_succ]
    rw [ih]
    apply next_after

theorem course_of_isOver {steps : Nat} (h : (p.course settings decorators steps).fate.isOver = true)
    (more : Nat) :
    p.course settings decorators (steps + more) = p.course settings decorators steps := by
  induction more with
  | zero => rfl
  | succ more ih =>
    rw [← Nat.add_assoc]
    rw [course_succ]
    rw [ih]
    apply next_of_isOver
    assumption

theorem course_add (steps more : Nat) : p.course settings decorators (steps + more)
    = (p.course settings decorators steps).course settings decorators more := by
  induction more with
  | zero => rfl
  | succ more ih =>
    rw [← Nat.add_assoc]
    rw [course_succ]
    rw [ih]
    rfl

theorem events_prefix_course (steps more : Nat) :
    (p.course settings decorators steps).events
      <+: (p.course settings decorators (steps + more)).events := by
  induction more with
  | zero => apply List.prefix_refl
  | succ more ih =>
    apply ih.trans
    apply List.prefix_append

theorem course_eq_of_isOver {steps steps' : Nat}
    (h : (p.course settings decorators steps).fate.isOver = true)
    (h' : (p.course settings decorators steps').fate.isOver = true) :
    p.course settings decorators steps' = p.course settings decorators steps := by
  rw [← course_of_isOver h steps']
  rw [← course_of_isOver h' steps]
  rw [Nat.add_comm]

theorem events_prefix_of_isOver {steps : Nat}
    (h : (p.course settings decorators steps).fate.isOver = true) (steps' : Nat) :
    (p.course settings decorators steps').events <+: (p.course settings decorators steps).events := by
  rw [← course_of_isOver h steps']
  rw [Nat.add_comm]
  apply events_prefix_course

theorem Sound.fate_next {f : Fate} {es : List Event} (h : f.After d es)
    (hover : f.isOver = false) : (f.next settings decorators).Sound d := by
  cases h with
  | @flies f later howner hfollows =>
    apply Sound.of_follows _ hfollows
    cases f with
    | queued job =>
      rw [Fate.next_queued howner]
      apply prospect_sound howner
    | parked s closes outer r =>
      apply sound_of_fate
      apply Fate.After.flies (f := .queued (.resume s r)) howner
      apply Dispatch.Follows.refl
  | answers hfollows hne => cases hover
  | abandons hfollows hmem => cases hover

theorem Sound.next (h : p.Sound d) : (p.next settings decorators).Sound d := by
  cases hover : p.fate.isOver with
  | true =>
    rw [next_of_isOver hover]
    assumption
  | false =>
    apply Sound.after
    . apply Sound.fate_next h.fate hover
    . apply h.inner

theorem Sound.course (h : p.Sound d) (steps : Nat) :
    (p.course settings decorators steps).Sound d := by
  induction steps with
  | zero => assumption
  | succ steps ih => apply ih.next

end Prospect

/-- Whether a strand is what a course comes to if the channel of the dispatch is open. -/
inductive Strand.Shows (i : Nat) (channel : ChannelId) (request : Request) :
    Strand → Prospect → Prop
  | flies {f : Flight} {es : List Event} :
    Shows i channel request ⟨{f}, 0, .received i channel request :: es⟩ ⟨es, .flies f⟩
  | owed {es : List Event} {d : Dispatch} {disposition : Disposition} {r : Response} (now : Nat) :
    Shows i channel request
      ⟨0, {(channel, r)}, .received i channel request ::
        (es ++ [.finished i d.nested (d.summary now disposition (some r.status))])⟩
      ⟨es, .answers d disposition r⟩
  | sent {es last : List Event} {d : Dispatch} {disposition : Disposition} {r : Response}
    (now : Nat)
    (hlast : Closing False i channel r
      (.finished i d.nested (d.summary now disposition (some r.status))) last) :
    Shows i channel request ⟨0, 0, .received i channel request :: (es ++ last)⟩
      ⟨es, .answers d disposition r⟩
  | abandoned {es : List Event} {d : Dispatch} (now : Nat) :
    Shows i channel request
      ⟨0, 0, .received i channel request ::
        (es ++ [.finished i d.nested (d.summary now .abandoned none)])⟩
      ⟨es, .abandons d⟩

/-- Whether a dispatch has ended and nothing was sent for it. -/
structure Strand.Mute (i : Nat) (s : Strand) : Prop where
  flights : s.flights = 0
  due : s.due = 0
  sends : s.events.filterMap (Event.sending? i) = []

namespace Strand

variable {closed : Prop} {i : Nat} {channel : ChannelId} {request : Request} {d : Dispatch}
  {fate : Fate} {es es' last : List Event} {s : Strand}

theorem shows_or_mute_of_leaves
    (h : fate.Leaves closed ⟨0, 0, .received d.id d.channel request :: (es ++ es')⟩ s)
    (hes : ∀ e ∈ es ++ es', e.isInner = true) (hfate : fate.After d es') :
    s.Shows d.id d.channel request ⟨es ++ es', fate⟩ ∨ closed ∧ s.Mute d.id := by
  cases h with
  | flies f =>
    apply Or.inl
    apply Shows.flies
  | @answers later disposition r delivered now hdelivers =>
    cases hfate with
    | answers hfollows hne =>
      rw [hfollows.id_eq]
      cases hdelivers with
      | later hr =>
        apply Or.inl
        rw [hfollows.channel_eq]
        apply Shows.owed
      | sent hr =>
        apply Or.inl
        rw [hfollows.id_eq, hfollows.channel_eq, note_note]
        apply Shows.sent now .sent
      | withheld hr hc =>
        refine .inr ⟨hc, rfl, rfl, ?_⟩
        rw [hfollows.id_eq, hfollows.channel_eq, note_note]
        apply Machine.filterMap_sending?_of_inner hes
  | abandons later now =>
    cases hfate with
    | abandons hfollows hmem =>
      apply Or.inl
      rw [hfollows.id_eq]
      apply Shows.abandoned

theorem Shows.of_fly {p : Prospect} {f : Flight}
    (h : (s.fly f).Shows i channel request p) :
    ∃ es, s = ⟨0, 0, .received i channel request :: es⟩ ∧ p = ⟨es, .flies f⟩ := by
  obtain ⟨flights, due, events⟩ := s
  unfold fly at h
  dsimp only at h
  generalize hflights : flights + {f} = all at h
  have hne : all ≠ 0 := by
    rw [← hflights]
    apply add_singleton_ne_zero
  cases h with
  | @flies g es =>
    obtain ⟨rfl, rfl⟩ := eq_of_add_singleton_eq hflights
    exact ⟨es, rfl, rfl⟩
  | owed now => exact absurd rfl hne
  | sent now hlast => exact absurd rfl hne
  | abandoned now => exact absurd rfl hne

theorem Shows.of_owe {p : Prospect} {channel' : ChannelId} {r : Response}
    (h : (s.owe channel' r).Shows i channel request p) :
    ∃ es d disposition now, channel' = channel ∧ p = ⟨es, .answers d disposition r⟩ ∧
      s = ⟨0, 0, .received i channel request ::
        (es ++ [.finished i d.nested (d.summary now disposition (some r.status))])⟩ := by
  obtain ⟨flights, due, events⟩ := s
  unfold owe at h
  dsimp only at h
  generalize hdue : due + {(channel', r)} = all at h
  have hne : all ≠ 0 := by
    rw [← hdue]
    apply add_singleton_ne_zero
  cases h with
  | flies => exact absurd rfl hne
  | @owed es d disposition r' now =>
    obtain ⟨rfl, heq⟩ := eq_of_add_singleton_eq hdue
    cases heq
    exact ⟨es, d, disposition, now, rfl, rfl, rfl⟩
  | sent now hlast => exact absurd rfl hne
  | abandoned now => exact absurd rfl hne

end Strand

namespace Machine

variable {m m' n : Machine} {i : Nat} {channel : ChannelId} {request : Request} {d : Dispatch}
  {told p : Prospect} {es : List Event}

def SendsBeforeClosing (m : Machine) (i : Nat) (channel : ChannelId) : Prop :=
  ∀ before after, m.journal = before ++ .closed channel :: after →
    ∃ r, .sending i channel r ∈ before

theorem SendsBeforeClosing.of_prefix (h : m'.SendsBeforeClosing i channel)
    (hj : m.journal <+: m'.journal) : m.SendsBeforeClosing i channel := by
  intro before after heq
  obtain ⟨rest, hrest⟩ := hj
  apply h before (after ++ rest)
  rw [← hrest]
  rw [heq]
  simp

theorem SendsBeforeClosing.sends_ne_nil (h : m.SendsBeforeClosing i channel) (hm : m.Honest)
    (hlt : channel < m.wires.length) (hc : m.isOpen channel = false) : m.sends i ≠ [] := by
  obtain ⟨before, after, heq⟩ := List.append_of_mem (hm.closed channel hlt hc)
  obtain ⟨r, hr⟩ := h before after heq
  apply List.ne_nil_of_mem (a := (channel, r))
  unfold sends
  rw [List.mem_filterMap]
  refine ⟨.sending i channel r, ?_, ?_⟩
  . rw [heq]
    apply List.mem_append_left
    assumption
  . simp [Event.sending?]

theorem Meets.shows_or_mute (h : m.Meets m' d told)
    (hs : m.strand d.id = ⟨0, 0, .received d.id d.channel request :: es⟩)
    (hes : ∀ e ∈ es, e.isInner = true) (htold : told.Sound d) :
    (m'.strand d.id).Shows d.id d.channel request (told.after es) ∨
      m'.isOpen d.channel = false ∧ (m'.strand d.id).Mute d.id := by
  obtain ⟨es', fate, hleaves, hcase⟩ := h
  rw [hs] at hleaves
  generalize m'.strand d.id = s' at hleaves
  cases hcase with
  | inl hkept =>
    obtain ⟨rfl, rfl⟩ := hkept
    apply Strand.shows_or_mute_of_leaves hleaves
    . rw [List.forall_mem_append]
      exact ⟨hes, htold.inner⟩
    . apply htold.fate
  | inr hclosed =>
    -- a dispatch is given up for a closed channel only before it sent anything
    obtain ⟨hpre, hc, tried, current, rfl⟩ := hclosed
    have hall : ∀ e ∈ es ++ es', e.isInner = true := by
      rw [List.forall_mem_append]
      refine ⟨hes, ?_⟩
      intro e he
      apply htold.inner
      apply hpre.subset he
    cases hleaves with
    | abandons _ now => exact .inr ⟨hc, rfl, rfl, filterMap_sending?_of_inner hall⟩

variable {settings : Settings} {decorators : List Decorator}

theorem Meets.shows_or_mute_next {started : Machine} {job : Job} {later : Dispatch}
    (h : started.Meets m' later (job.prospect settings decorators later))
    (howner : job.run.owner = .dispatch later)
    (hs : ((started.strand later.id).fly (.queued job)).Shows later.id channel request p)
    (hp : p.Sound d) (hch : d.channel = channel) :
    (m'.strand later.id).Shows later.id channel request (p.next settings decorators) ∨
      m'.isOpen channel = false ∧ (m'.strand later.id).Mute later.id := by
  obtain ⟨es, hstarted, rfl⟩ := hs.of_fly
  have hlater : later.channel = channel := by
    cases hp.fate with
    | flies howner' hfollows =>
      have heq := howner.symm.trans howner'
      injection heq with heq
      rw [heq]
      rw [hfollows.channel_eq]
      assumption
  subst hlater
  unfold Prospect.next
  rw [Fate.next_queued howner]
  apply h.shows_or_mute hstarted hp.inner
  apply prospect_sound howner

/-- What a step makes of a dispatch that is somewhere on its course. -/
inductive Leads (settings : Settings) (m m' : Machine) (i : Nat) (channel : ChannelId)
    (request : Request) (p : Prospect) : Prop
  | stays (h : (m'.strand i).Shows i channel request p)
  | works {started : Machine} {job : Job} (hstart : m.startJob? = some (job, started))
    (hbefore : m.decorators <+: (started.turn job).1.decorators)
    (hafter : (started.turn job).1.decorators <+: m'.decorators)
    (h : (m'.strand i).Shows i channel request (p.next settings (started.turn job).1.decorators))
  | wakes (h : ∀ decorators, (m'.strand i).Shows i channel request (p.next settings decorators))
  | falls (hc : m'.isOpen channel = false) (h : (m'.strand i).Mute i)

theorem Affects.leads (h : m.Affects m' i) (hs : (m.strand i).Shows i channel request p)
    (hp : p.Sound d) (hch : d.channel = channel) (hsettings : m.settings = settings) :
    m.Leads settings m' i channel request p := by
  cases h with
  | idle h =>
    rw [← h] at hs
    exact .stays hs
  | @worked started job later between hstrand hid howner hbefore hafter hmeets hstart hturn =>
    subst hid hturn hsettings
    rw [hstrand] at hs
    cases hmeets.shows_or_mute_next howner hs hp hch with
    | inl hshows => exact .works hstart hbefore hafter hshows
    | inr hmute => exact .falls hmute.1 hmute.2
  | @woke s closes outer r rest hstrand hstrand' =>
    rw [hstrand] at hs
    obtain ⟨es, rfl, rfl⟩ := hs.of_fly
    apply Leads.wakes
    intro decorators
    rw [hstrand']
    unfold Prospect.next Fate.next Prospect.after
    rw [List.append_nil]
    apply Strand.Shows.flies
  | sent hstrand hstrand' =>
    rw [hstrand] at hs
    obtain ⟨es, d', disposition, now, rfl, rfl, rfl⟩ := hs.of_owe
    apply Leads.stays
    rw [hstrand']
    unfold Strand.note
    rw [List.cons_append]
    rw [List.append_assoc]
    apply Strand.Shows.sent now .sentLater
  | @withheld channel' r rest hstrand hstrand' hc =>
    have hinner := hp.inner
    rw [hstrand] at hs
    obtain ⟨es, d', disposition, now, rfl, rfl, rfl⟩ := hs.of_owe
    apply Leads.falls hc
    rw [hstrand']
    refine ⟨rfl, rfl, ?_⟩
    unfold Strand.note
    rw [List.cons_append, List.append_assoc]
    apply filterMap_sending?_of_inner hinner

theorem Leads.exists_shows (h : m.Leads settings m' i channel request p)
    (hbefore : m.decorators = decorators) (hafter : m'.decorators = decorators)
    (hopen : m'.isOpen channel = false → m'.sends i ≠ []) :
    ∃ steps, (m'.strand i).Shows i channel request (p.course settings decorators steps) := by
  cases h with
  | stays hshows => exact ⟨0, hshows⟩
  | @works started job hstart hpre hpre' hshows =>
    -- decorators are only ever added, and at the end there are none but the first ones
    have hbetween : (started.turn job).1.decorators = decorators := by
      rw [hbefore] at hpre
      rw [hafter] at hpre'
      apply List.IsPrefix.eq_of_length_le hpre'
      apply hpre.length_le
    rw [hbetween] at hshows
    exact ⟨1, hshows⟩
  | wakes hshows => exact ⟨1, hshows decorators⟩
  | falls hc hmute =>
    apply absurd _ (hopen hc)
    rw [sends_eq]
    apply hmute.sends

theorem Grows.decorators_eq (h : m.Grows m') (h' : m'.Grows n) (heq : n.decorators = m.decorators) :
    m'.decorators = m.decorators := by
  have hlast := h'.decorators
  rw [heq] at hlast
  apply List.IsPrefix.eq_of_length_le hlast
  apply h.decorators.length_le

theorem Reaches.shows (h : m.Reaches n) (hm : m.Sane) (hi : i < m.dispatches)
    (hlt : channel < m.wires.length) (hs : (m.strand i).Shows i channel request p) (hp : p.Sound d)
    (hch : d.channel = channel) (hdecorators : n.decorators = m.decorators)
    (hsent : n.SendsBeforeClosing i channel) :
    ∃ steps, (n.strand i).Shows i channel request (p.course m.settings m.decorators steps) := by
  -- what is assumed of the last machine holds on the way to it, since nothing is taken back
  induction h with
  | refl => exact ⟨0, hs⟩
  | @tail mid last hmid hlast ih =>
    have ⟨hsane, hg⟩ := Reaches.sane hmid hm
    have ⟨hsane', hg'⟩ := hlast.sane hsane
    have hmid' := hg.decorators_eq hg' hdecorators
    obtain ⟨steps, hshows⟩ := ih hmid' (hsent.of_prefix hg'.journal)
    have haffects := hlast.affects hsane (Nat.lt_of_lt_of_le hi hg.dispatches)
    have hwires := Nat.lt_of_lt_of_le hlt (hg.trans hg').wires
    have hleads := haffects.leads hshows (hp.course steps) hch hg.settings
    obtain ⟨more, hmore⟩ := hleads.exists_shows hmid' hdecorators
      (hsent.sends_ne_nil hsane'.honest hwires)
    rw [← Prospect.course_add] at hmore
    exact ⟨steps + more, hmore⟩

theorem dispatch_shows_or_mute {outer : ChannelId} {nested : Bool} (hm : m.Sane) :
    ((m.dispatch request channel outer nested).strand m.dispatches).Shows m.dispatches channel
      request
      ((m.newDispatch request channel outer nested).entering m.settings m.decorators
        (!m.pool.isFull)) ∨
      (m.dispatch request channel outer nested).isOpen channel = false ∧
        ((m.dispatch request channel outer nested).strand m.dispatches).Mute m.dispatches := by
  obtain ⟨received, hreceived, hmeets⟩ := @meets_dispatch m _ request channel outer nested rfl
  have hfresh : m.strand (m.newDispatch request channel outer nested).id = .empty := by
    apply hm.fresh
    apply Nat.le_refl
  rw [hfresh] at hreceived
  apply hmeets.shows_or_mute hreceived (fun _ he => nomatch he) (entering_sound _)

/-- Whatever happens around a dispatch, it follows its course. -/
theorem exists_course {outer : ChannelId} {nested : Bool} (hm : m.Sane)
    (hc : channel < m.wires.length) (h : (m.dispatch request channel outer nested).Reaches n)
    (hdecorators : n.decorators = m.decorators)
    (hsent : n.SendsBeforeClosing m.dispatches channel) :
    ∃ steps, (n.strand m.dispatches).Shows m.dispatches channel request
      (((m.newDispatch request channel outer nested).entering m.settings m.decorators
        (!m.pool.isFull)).course m.settings m.decorators steps) := by
  have hacts := @acts_dispatch m (fun _ => True) outer channel trivial hc request nested
  have hsane := hacts.sane hm
  have hg := (Reaches.sane h hsane).2
  have hdecorators' := hacts.grows.decorators_eq hg hdecorators
  have hlt := Nat.lt_of_lt_of_le hc hacts.grows.wires
  have hopen := (hsent.of_prefix hg.journal).sends_ne_nil hsane.honest hlt
  cases @dispatch_shows_or_mute m channel request outer nested hm with
  | inr hmute =>
    apply absurd _ (hopen hmute.1)
    rw [sends_eq]
    apply hmute.2.sends
  | inl hshows =>
    have hid : m.dispatches < (m.dispatch request channel outer nested).dispatches := by
      rw [dispatches_dispatch request nested hc]
      omega
    have hcourse := Reaches.shows h hsane hid hlt hshows (entering_sound _) rfl
      (hdecorators.trans hdecorators'.symm) hsent
    rw [hdecorators', hacts.grows.settings] at hcourse
    exact hcourse

end Machine
end PageDispatch
