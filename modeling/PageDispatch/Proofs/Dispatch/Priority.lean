import PageDispatch.Proofs.Dispatch.Likeness
import PageDispatch.Proofs.Dispatch.Story

/-!
This module contains the verification that the order of registration is the order of priority: a
page that rejects a request leaves nothing behind, and the pages behind the one that answers are not
tried.
-/

namespace PageDispatch

/-- Whether two dispatches tried the same pages so far, out of those that they share. -/
structure Dispatch.Shares (shared rest rest' : List Page) (d d' : Dispatch) : Prop where
  twins : d.Twins 0 d'
  current : d'.current = d.current
  pages : d.pages = shared ++ rest
  pages' : d'.pages = shared ++ rest'
  tried : d.tried ≤ shared.length

/-- Whether two dispatches have the same pages to come, though one of them tried a page more. -/
structure Dispatch.Outruns (d d' : Dispatch) : Prop where
  twins : d.Twins 1 d'
  current : d'.current = d.current
  pages : d'.pages.drop d'.tried = d.pages.drop d.tried

/-- Whether two courses come to the first page that their dispatches do not share. -/
def Prospect.Parts (settings : Settings) (decorators : List Decorator) (i : Nat)
    (shared rest rest' : List Page) (p p' : Prospect) : Prop :=
  ∃ (d d' : Dispatch) (es : List Event), d.id = i ∧ d.Shares shared rest rest' d' ∧
    d.tried = shared.length ∧ (∀ i tried, .rejected i tried ∈ es → tried ≤ shared.length) ∧
    p = (d.advancing settings decorators).after es ∧
    p' = (d'.advancing settings decorators).after es

/-- Whether two courses are alike, but for a page that is tried on one of them and rejects. -/
def Prospect.Without (settings : Settings) (decorators : List Decorator) (page : Page)
    (i tried : Nat) (p p' : Prospect) : Prop :=
  ∃ (k l : Nat) (first es : List Event), (∀ e ∈ es, e.isEffort = true) ∧
    ∀ more, ∃ q q' : Prospect, q.Alike Dispatch.Outruns 1 q' ∧
      p.course settings decorators (k + more) = q.after (first ++ page.trial i tried es) ∧
      p'.course settings decorators (l + more) = q'.after first

section

variable {settings : Settings} {decorators : List Decorator} {shared rest rest' : List Page}
  {first d d' : Dispatch} {p p' : Prospect}

theorem Dispatch.Shares.tried_eq (h : d.Shares shared rest rest' d') : d'.tried = d.tried := by
  have htried := h.twins.tried
  omega

theorem advancing_shares (h : d.Shares shared rest rest' d') (hlt : d.tried < shared.length) :
    (d.advancing settings decorators).Alike (Dispatch.Shares shared rest rest') 0
      (d'.advancing settings decorators) := by
  have hpage : d.pages[d.tried]? = shared[d.tried]? := by
    rw [h.pages]
    rw [List.getElem?_append_left hlt]
  apply advancing_alike h.twins
  . rw [hpage]
    rw [h.pages']
    rw [h.tried_eq]
    rw [List.getElem?_append_left hlt]
  . intro page _
    refine ⟨h.twins.trying page, rfl, h.pages, h.pages', ?_⟩
    assumption
  . intro hnone
    rw [hpage] at hnone
    rw [List.getElem?_eq_none_iff] at hnone
    omega

theorem entering_shares (h : d.Shares shared rest rest' d') (hlt : d.tried < shared.length)
    (admitted : Bool) :
    (d.entering settings decorators admitted).Alike (Dispatch.Shares shared rest rest') 0
      (d'.entering settings decorators admitted) := by
  cases admitted with
  | true => apply advancing_shares h hlt
  | false =>
    unfold Dispatch.entering Dispatch.shedding
    rw [h.twins.context]
    constructor
    . rfl
    . apply Fate.Alike.answers h

theorem advancing_outruns (h : d.Twins 1 d')
    (hpages : d'.pages.drop d'.tried = d.pages.drop d.tried) :
    (d.advancing settings decorators).Alike Dispatch.Outruns 1
      (d'.advancing settings decorators) := by
  apply advancing_alike h
  . have hhead := congrArg List.head? hpages
    rw [List.head?_drop, List.head?_drop] at hhead
    assumption
  . intro page _
    refine ⟨h.trying page, rfl, ?_⟩
    have htail := congrArg List.tail hpages
    rw [List.tail_drop, List.tail_drop] at htail
    assumption
  . intro _
    exact ⟨⟨h.id, h.nested, h.context, h.channel, h.outer, h.tried⟩, rfl, hpages⟩

theorem course_outruns (h : p.Alike Dispatch.Outruns 1 p') (steps : Nat) :
    (p.course settings decorators steps).Alike Dispatch.Outruns 1
      (p'.course settings decorators steps) := by
  induction steps with
  | zero => assumption
  | succ steps ih =>
    cases next_alike ih (fun _ _ houtruns => houtruns.twins) with
    | inl halike => exact halike
    | inr hfall =>
      obtain ⟨d, d', hd, houtruns, hfall⟩ := hfall
      apply hfall.alike houtruns.twins ih.events
      apply advancing_outruns houtruns.twins houtruns.pages

theorem Prospect.FallAlike.parts {es : List Event}
    (h : FallAlike settings decorators d d' es es p p')
    (hshares : d.Shares shared rest rest' d') (hall : d.tried = shared.length)
    (ht : first.Tracks es d) :
    .rejected first.id shared.length ∈ p.events ∧
      p.Parts settings decorators first.id shared rest rest' p' := by
  obtain ⟨more, hmore, heq, heq'⟩ := h
  rw [heq']
  rw [heq]
  rw [hshares.tried_eq, hshares.twins.id]
  rw [hall, ht.follows.id_eq]
  refine ⟨?_, d, d', _, ht.follows.id_eq, hshares, hall, ?_, rfl, rfl⟩
  . unfold Prospect.after
    simp
  . intro i tried hmem
    have htracks := (ht.append (isTrial_of_isOfRun (isOfRun_of_isEffort hmore))).falling
    rw [hall, ht.follows.id_eq] at htracks
    have hle := htracks.rejected i tried hmem
    omega

theorem course_shares (h : p.Alike (Dispatch.Shares shared rest rest') 0 p') (hp : p.Tracks first)
    (steps : Nat) :
    (p.course settings decorators steps).Alike (Dispatch.Shares shared rest rest') 0
      (p'.course settings decorators steps) ∨
    ∃ k, k ≤ steps ∧
      .rejected first.id shared.length ∈ (p.course settings decorators k).events ∧
      Prospect.Parts settings decorators first.id shared rest rest' (p.course settings decorators k)
        (p'.course settings decorators k) := by
  induction steps with
  | zero => exact .inl h
  | succ steps ih =>
    cases ih with
    | inl halike =>
      cases next_alike halike (fun _ _ hshares => hshares.twins) with
      | inl hnext => exact .inl hnext
      | inr hfall =>
        obtain ⟨d, d', hd, hshares, hfall⟩ := hfall
        cases Nat.lt_or_eq_of_le hshares.tried with
        | inl hlt =>
          apply Or.inl
          apply hfall.alike hshares.twins halike.events
          apply advancing_shares hshares hlt
        | inr hall =>
          apply Or.inr
          rw [halike.events_eq] at hfall
          have hparts := hfall.parts hshares hall ((hp.course steps).tracks hd)
          exact ⟨steps + 1, Nat.le_refl _, hparts⟩
    | inr hparts =>
      -- where they parted they did so once and for all
      obtain ⟨k, hk, hrejected, hparts⟩ := hparts
      exact .inr ⟨k, Nat.le_succ_of_le hk, hrejected, hparts⟩

variable {i tried steps : Nat} {page : Page}

theorem entering_alike (h : d.Shares shared rest rest' d') (htried : d.tried = 0)
    (hlt : 0 < shared.length) (admitted : Bool)
    (hrejected : .rejected d.id shared.length
      ∉ ((d.entering settings decorators admitted).course settings decorators steps).events) :
    ((d.entering settings decorators admitted).course settings decorators steps).Alike
      (Dispatch.Shares shared rest rest') 0
      ((d'.entering settings decorators admitted).course settings decorators steps) := by
  have htracks := @entering_tracks d settings decorators htried admitted
  rw [← htried] at hlt
  cases @course_shares settings decorators _ _ _ _ _ _ (entering_shares h hlt admitted) htracks
    steps with
  | inl halike => assumption
  | inr hparts =>
    obtain ⟨k, hk, hmem, hparts⟩ := hparts
    obtain ⟨more, rfl⟩ := Nat.exists_eq_add_of_le hk
    apply absurd _ hrejected
    apply (Prospect.events_prefix_course k more).subset
    assumption

theorem course_over {p : Prospect} (h : p.fate.isOver = true) :
    p.course settings decorators steps = p := by
  have hover := @Prospect.course_of_isOver settings decorators p 0 h steps
  rw [Nat.zero_add] at hover
  exact hover

theorem exists_parts (h : d.Shares shared rest rest' d') (htried : d.tried = 0) (admitted : Bool)
    (hrejected : .rejected i (shared.length + 1)
      ∈ ((d.entering settings decorators admitted).course settings decorators steps).events) :
    ∃ k, k ≤ steps ∧ Prospect.Parts settings decorators d.id shared rest rest'
      ((d.entering settings decorators admitted).course settings decorators k)
      ((d'.entering settings decorators admitted).course settings decorators k) := by
  have htracks := @entering_tracks d settings decorators htried admitted
  cases Nat.eq_zero_or_pos shared.length with
  | inl hnone =>
    cases admitted with
    | true =>
      refine ⟨0, Nat.zero_le _, d, d', [], rfl, h, ?_, ?_, rfl, rfl⟩
      . omega
      . simp
    | false =>
      rw [course_over rfl] at hrejected
      cases hrejected
  | inr hlt =>
    rw [← htried] at hlt
    cases @course_shares settings decorators _ _ _ _ _ _ (entering_shares h hlt admitted) htracks
      steps with
    | inl halike =>
      -- as long as they are alike, the dispatch did not try the page yet
      obtain ⟨later, later', hd, hd', hshares⟩ := halike.fate.exists_dispatch?
      have hle := ((htracks.course steps).tracks hd).rejected i _ hrejected
      have htried := hshares.tried
      omega
    | inr hparts =>
      obtain ⟨k, hk, hmem, hparts⟩ := hparts
      exact ⟨k, hk, hparts⟩

theorem Prospect.Without.after (h : p.Without settings decorators page i tried p')
    (es : List Event) : (p.after es).Without settings decorators page i tried (p'.after es) := by
  obtain ⟨k, l, first, own, hown, hcourse⟩ := h
  refine ⟨k, l, es ++ first, own, hown, ?_⟩
  intro more
  obtain ⟨q, q', halike, heq, heq'⟩ := hcourse more
  refine ⟨q, q', halike, ?_, ?_⟩
  . rw [course_after]
    rw [heq]
    rw [after_after]
    rw [List.append_assoc]
  . rw [course_after]
    rw [heq']
    rw [after_after]

theorem Prospect.Without.of_course (steps : Nat)
    (h : (p.course settings decorators steps).Without settings decorators page i tried
      (p'.course settings decorators steps)) : p.Without settings decorators page i tried p' := by
  obtain ⟨k, l, first, own, hown, hcourse⟩ := h
  refine ⟨steps + k, steps + l, first, own, hown, ?_⟩
  intro more
  rw [Nat.add_assoc, Nat.add_assoc]
  rw [course_add steps (k + more), course_add steps (l + more)]
  apply hcourse

theorem advancing_without (h : d.Shares shared (page :: rest) rest d')
    (hall : d.tried = shared.length)
    (hrejected : .rejected i (shared.length + 1)
      ∈ ((d.advancing settings decorators).course settings decorators steps).events) :
    (d.advancing settings decorators).Without settings decorators page d.id (shared.length + 1)
      (d'.advancing settings decorators) := by
  have hpage : d.pages[d.tried]? = some page := by
    rw [h.pages]
    rw [hall]
    simp
  have htwins : (d.trying page).Twins 1 d' := by
    have htried := h.tried_eq
    refine ⟨h.twins.id, h.twins.nested, h.twins.context, h.twins.channel, h.twins.outer, ?_⟩
    unfold Dispatch.trying
    dsimp only
    omega
  have hpages : d'.pages.drop d'.tried = (d.trying page).pages.drop (d.trying page).tried := by
    unfold Dispatch.trying
    dsimp only
    rw [h.pages, h.pages']
    rw [h.tried_eq]
    rw [hall]
    simp
  cases course_staysOn hpage steps with
  | inl hstays => exact absurd hrejected (hstays.rejected_not_mem i _)
  | inr hfell =>
    obtain ⟨k, es, hk, hes, heq⟩ := hfell
    refine ⟨k, 0, [], es, hes, ?_⟩
    intro more
    -- after the rejection the first dispatch is where the second one starts, but for its count
    have halike := @advancing_outruns settings decorators _ _ htwins hpages
    have hcourse := @course_outruns settings decorators _ _ halike more
    refine ⟨_, _, hcourse, ?_, ?_⟩
    . rw [Prospect.course_add]
      rw [heq]
      rw [hall]
      apply Prospect.course_after
    . rw [Nat.zero_add]
      rfl

theorem entering_without (h : d.Shares shared (page :: rest) rest d') (htried : d.tried = 0)
    (admitted : Bool)
    (hrejected : .rejected i (shared.length + 1)
      ∈ ((d.entering settings decorators admitted).course settings decorators steps).events) :
    (d.entering settings decorators admitted).Without settings decorators page d.id
      (shared.length + 1) (d'.entering settings decorators admitted) := by
  obtain ⟨k, hk, later, later', first, hid, hshares, hall, hfirst, heq, heq'⟩ :=
    exists_parts h htried admitted hrejected
  have hsteps : steps = k + (steps - k) := by omega
  rw [hsteps, Prospect.course_add, heq, Prospect.course_after] at hrejected
  apply Prospect.Without.of_course k
  rw [heq, heq']
  rw [← hid]
  apply Prospect.Without.after
  -- the rejections before this place are of pages with smaller numbers
  cases List.mem_append.mp hrejected with
  | inl hold =>
    have hle := hfirst i _ hold
    omega
  | inr hnew => apply advancing_without hshares hall hnew

end
namespace Fate

variable {R : Dispatch → Dispatch → Prop} {skipped now now' : Nat} {channel : ChannelId}
  {fate fate' : Fate}

theorem alike_of_isOver (h : fate.isOver = true) : fate.Alike Eq fate := by
  cases fate with
  | flies f => cases h
  | answers d disposition r => apply Alike.answers rfl
  | abandons d => apply Alike.abandons rfl

theorem Alike.responses_eq (h : fate.Alike R fate') :
    fate'.responses channel = fate.responses channel := by
  cases h with
  | flies howner h => rfl
  | answers h => rfl
  | abandons h => rfl

theorem Alike.summary (h : fate.Alike R fate')
    (hR : ∀ d d', R d d' → d.Twins skipped d' ∧ d'.current = d.current) {nested nested' : Bool}
    {s s' : DispatchSummary} (hs : fate.summary? now = some (nested, s))
    (hs' : fate'.summary? now' = some (nested', s')) :
    nested' = nested ∧
      s = { s' with pagesTried := s'.pagesTried + skipped, latency := s.latency } := by
  cases h with
  | flies howner h => cases hs
  | answers h =>
    obtain ⟨htwins, hcurrent⟩ := hR _ _ h
    cases hs
    cases hs'
    refine ⟨htwins.nested, ?_⟩
    unfold Dispatch.summary
    rw [htwins.context, htwins.tried, hcurrent]
  | abandons h =>
    obtain ⟨htwins, hcurrent⟩ := hR _ _ h
    cases hs
    cases hs'
    refine ⟨htwins.nested, ?_⟩
    unfold Dispatch.summary
    rw [htwins.context, htwins.tried, hcurrent]

end Fate

namespace Machine

/-- Whether two engines tell the same end of a dispatch, but for its time and the pages skipped. -/
structure EndsLike (skipped : Nat) (n n' : Machine) (i : Nat) : Prop where
  responses : n'.responses i = n.responses i
  reports : n'.reports i = n.reports i
  summary : ∀ nested nested' s s', .finished i nested s ∈ n.journal →
    .finished i nested' s' ∈ n'.journal →
      nested' = nested ∧
        s = { s' with pagesTried := s'.pagesTried + skipped, latency := s.latency }

/-- Whether nothing but time and other work came to a dispatch that was started in another state. -/
structure Undisturbed (m n : Machine) (i : Nat) (channel : ChannelId) : Prop where
  decorators : n.decorators = m.decorators
  closing : n.SendsBeforeClosing i channel

def arrival (m : Machine) (pages : List Page) (request : Request) (channel outer : ChannelId)
    (nested : Bool) : Dispatch :=
  { m.newDispatch request channel outer nested with pages }

def dispatching (m : Machine) (pages : List Page) (request : Request) (channel outer : ChannelId)
    (nested : Bool) : Machine :=
  ({ m with pages } : Machine).dispatch request channel outer nested

section

variable {m n n' : Machine} {settings : Settings} {decorators : List Decorator} {i tried : Nat}
  {channel outer : ChannelId} {request : Request} {nested : Bool} {page : Page}
  {shared rest rest' pages : List Page} {p p' : Prospect} {R : Dispatch → Dispatch → Prop}
  {skipped steps steps' : Nat}

theorem arrival_shares (m : Machine) (shared rest rest' : List Page) :
    (m.arrival (shared ++ rest) request channel outer nested).Shares shared rest rest'
      (m.arrival (shared ++ rest') request channel outer nested) :=
  ⟨⟨rfl, rfl, rfl, rfl, rfl, rfl⟩, rfl, rfl, rfl, Nat.zero_le _⟩

theorem exists_follows (h : Reachable settings m) (hc : channel < m.wires.length)
    (hn : (m.dispatching pages request channel outer nested).Reaches n)
    (hu : m.Undisturbed n m.dispatches channel) :
    ∃ steps, n.Follows m.dispatches channel
      (((m.arrival pages request channel outer nested).entering settings m.decorators
        (!m.pool.isFull)).course settings m.decorators steps) := by
  have ⟨hsane, hsettings⟩ := h.sane
  have hsane' : ({ m with pages } : Machine).Sane :=
    hsane.of_subset (fun _ hmem => hmem) (fun _ hmem => hmem) rfl rfl rfl rfl
  obtain ⟨steps, hshows⟩ := exists_course hsane' hc hn hu.decorators hu.closing
  rw [← hsettings]
  refine ⟨steps, follows_of_shows hshows ?_⟩
  apply ((entering_sound _).course steps).inner

theorem isOver_of_finished (hn : n.Follows i channel p) (h : n.Finished i) :
    p.fate.isOver = true := by
  obtain ⟨nested, s, hmem⟩ := h
  obtain ⟨now, hs⟩ := hn.summary nested s hmem
  apply Fate.isOver_of_summary? hs

theorem endsLike_of_alike (hn : n.Follows i channel p) (hn' : n'.Follows i channel p')
    (h : p.fate.Alike R p'.fate)
    (hR : ∀ d d', R d d' → d.Twins skipped d' ∧ d'.current = d.current)
    (hreports : p'.events.filterMap Event.report? = p.events.filterMap Event.report?) :
    n.EndsLike skipped n' i := by
  constructor
  . rw [hn.responses, hn'.responses]
    apply h.responses_eq
  . unfold reports
    rw [hn.story, hn'.story]
    assumption
  . intro nested nested' s s' hmem hmem'
    obtain ⟨now, hs⟩ := hn.summary nested s hmem
    obtain ⟨now', hs'⟩ := hn'.summary nested' s' hmem'
    apply h.summary hR hs hs'

theorem reports_without {es first : List Event} {q q' : Prospect}
    (h : q.Alike R skipped q') (hes : ∀ e ∈ es, e.isEffort = true) :
    (q'.after first).events.filterMap Event.report?
      =
    (q.after (first ++ page.trial i tried es)).events.filterMap Event.report? := by
  have hown : es.filterMap Event.report? = [] := by
    rw [List.filterMap_eq_nil_iff]
    intro e he
    have heffort := hes e he
    cases e <;> first | rfl | cases heffort
  have htrial : (page.trial i tried es).filterMap Event.report? = [] := by
    unfold Page.trial
    rw [List.filterMap_cons_none rfl]
    rw [List.filterMap_append]
    rw [hown]
    rfl
  have hlast : q'.events.filterMap Event.report? = q.events.filterMap Event.report? := by
    rw [h.events]
    rw [List.filterMap_map]
    congr
    funext e
    cases e <;> rfl
  unfold Prospect.after
  dsimp only
  rw [List.filterMap_append, List.filterMap_append, List.filterMap_append]
  rw [htrial]
  rw [hlast]
  rw [List.append_nil]

theorem story_without (h : p.Without settings decorators page i tried p')
    (hn : n.Follows i channel (p.course settings decorators steps)) (hfinished : n.Finished i)
    (hn' : n'.Follows i channel (p'.course settings decorators steps')) :
    ∃ first es last, (∀ e ∈ es, e.isEffort = true) ∧
      n.story i = first ++ page.trial i tried es ++ last ∧
      n'.story i <+: first ++ last.map (Event.recounted 1) ∧
      (n'.Finished i →
        n'.story i = first ++ last.map (Event.recounted 1) ∧ n.EndsLike 1 n' i) := by
  have hover := isOver_of_finished hn hfinished
  obtain ⟨k, l, first, es, hes, hcourse⟩ := h
  -- the first course is over after `steps` anyway, and so is the second one at this place
  obtain ⟨q, q', halike, heq, heq'⟩ := hcourse steps
  rw [Nat.add_comm, Prospect.course_of_isOver hover] at heq
  have hover' : (p'.course settings decorators (l + steps)).fate.isOver = true := by
    rw [heq']
    rw [heq] at hover
    apply halike.fate.isOver_eq.trans hover
  have hstory := hn'.story
  refine ⟨first, es, q.events, hes, ?_, ?_, ?_⟩
  . rw [hn.story]
    rw [heq]
    rfl
  . have hpre := Prospect.events_prefix_of_isOver hover' steps'
    rw [hstory]
    rw [heq'] at hpre
    rw [← halike.events]
    exact hpre
  . intro hfinished'
    have hsame := Prospect.course_eq_of_isOver hover' (isOver_of_finished hn' hfinished')
    rw [hsame, heq'] at hn'
    rw [heq] at hn
    constructor
    . rw [hn'.story]
      rw [← halike.events]
      rfl
    . apply endsLike_of_alike hn hn' halike.fate
      . intro d d' houtruns
        exact ⟨houtruns.twins, houtruns.current⟩
      . apply reports_without halike hes

theorem built_prefix_of_shares (h : (p.course settings decorators steps).Alike
    (Dispatch.Shares shared rest rest') 0 p') (hp : p.Tracks first)
    (hn : n.Follows i channel (p.course settings decorators steps))
    (hfirst : first.pages = shared ++ rest) : n.built i <+: shared.map Page.name := by
  obtain ⟨d, d', hd, hd', hshares⟩ := h.fate.exists_dispatch?
  have ht := (hp.course steps).tracks hd
  unfold built
  rw [hn.story]
  rw [ht.built]
  rw [hfirst]
  rw [List.take_append_of_le_length hshares.tried]
  apply List.IsPrefix.map
  apply List.take_prefix

theorem story_shared (h : (p.course settings decorators steps).Alike
    (Dispatch.Shares shared rest rest') 0 (p'.course settings decorators steps))
    (hn : n.Follows i channel (p.course settings decorators steps)) (hfinished : n.Finished i)
    (hn' : n'.Follows i channel (p'.course settings decorators steps')) :
    n'.story i <+: n.story i ∧
      (n'.Finished i → n'.story i = n.story i ∧ n.EndsLike 0 n' i) := by
  have hover := isOver_of_finished hn hfinished
  have hover' := h.fate.isOver_eq.trans hover
  constructor
  . have hpre := Prospect.events_prefix_of_isOver hover' steps'
    rw [hn.story, hn'.story]
    rw [← h.events_eq]
    exact hpre
  . intro hfinished'
    have hsame := Prospect.course_eq_of_isOver hover' (isOver_of_finished hn' hfinished')
    rw [hsame] at hn'
    constructor
    . rw [hn.story, hn'.story]
      apply h.events_eq
    . apply endsLike_of_alike hn hn' h.fate
      . intro d d' hshares
        exact ⟨hshares.twins, hshares.current⟩
      . rw [h.events_eq]

theorem story_same (hn : n.Follows i channel (p.course settings decorators steps))
    (hn' : n'.Follows i channel (p.course settings decorators steps')) :
    (n.story i <+: n'.story i ∨ n'.story i <+: n.story i) ∧
      (n.Finished i → n'.Finished i → n'.story i = n.story i ∧ n.EndsLike 0 n' i) := by
  constructor
  . rw [hn.story, hn'.story]
    cases Nat.le_total steps steps' with
    | inl hle =>
      obtain ⟨more, rfl⟩ := Nat.exists_eq_add_of_le hle
      apply Or.inl
      apply Prospect.events_prefix_course
    | inr hle =>
      obtain ⟨more, rfl⟩ := Nat.exists_eq_add_of_le hle
      apply Or.inr
      apply Prospect.events_prefix_course
  . intro hfinished hfinished'
    have hover := isOver_of_finished hn hfinished
    have hsame := Prospect.course_eq_of_isOver hover (isOver_of_finished hn' hfinished')
    rw [hsame] at hn'
    constructor
    . rw [hn.story, hn'.story]
    . apply endsLike_of_alike hn hn' (Fate.alike_of_isOver hover)
      . intro d d' heq
        cases heq
        exact ⟨⟨rfl, rfl, rfl, rfl, rfl, rfl⟩, rfl⟩
      . rfl

theorem built_of_tracks {first : Dispatch} (hp : p.Tracks first) (hn : n.Follows i channel p) :
    n.built i <+: first.pages.map Page.name := by
  obtain ⟨d, hd, ht⟩ := hp
  unfold built
  rw [hn.story]
  rw [ht.built]
  apply List.IsPrefix.map
  apply List.take_prefix

theorem rejected_mem_iff (hn : n.Follows i channel p) :
    .rejected i tried ∈ n.journal ↔ .rejected i tried ∈ p.events := by
  rw [← hn.story]
  unfold story
  rw [List.mem_filter]
  simp [Event.dispatch?, Event.isInner]

end

/--
The order of registration is the order of priority. A page that rejects the request leaves nothing
behind but that it was tried; of the pages behind the first one that does not reject it none is
tried, whatever they are; and pages that are registered while the dispatch is at work change
nothing.
-/
theorem Reachable.registration_order_is_priority {m : Machine} {settings : Settings}
    (h : Reachable settings m) {channel : ChannelId} (hc : channel < m.wires.length)
    (request : Request) (outer : ChannelId) (nested : Bool) :
    (∀ before page after n n',
      (m.dispatching (before ++ page :: after) request channel outer nested).Reaches n →
      (m.dispatching (before ++ after) request channel outer nested).Reaches n' →
      m.Undisturbed n m.dispatches channel → m.Undisturbed n' m.dispatches channel →
      n.Finished m.dispatches → .rejected m.dispatches (before.length + 1) ∈ n.journal →
        ∃ first es last, (∀ e ∈ es, e.isEffort = true) ∧
          n.story m.dispatches
            = first ++ page.trial m.dispatches (before.length + 1) es ++ last ∧
          n'.story m.dispatches <+: first ++ last.map (Event.recounted 1) ∧
          (n'.Finished m.dispatches →
            n'.story m.dispatches = first ++ last.map (Event.recounted 1) ∧
              n.EndsLike 1 n' m.dispatches)) ∧
    (∀ before page after other n n',
      (m.dispatching (before ++ page :: after) request channel outer nested).Reaches n →
      (m.dispatching (before ++ page :: other) request channel outer nested).Reaches n' →
      m.Undisturbed n m.dispatches channel → m.Undisturbed n' m.dispatches channel →
      n.Finished m.dispatches → .rejected m.dispatches (before.length + 1) ∉ n.journal →
        n.built m.dispatches <+: (before ++ [page]).map Page.name ∧
        n'.built m.dispatches <+: n.built m.dispatches ∧
        n'.story m.dispatches <+: n.story m.dispatches ∧
        (n'.Finished m.dispatches →
          n'.story m.dispatches = n.story m.dispatches ∧ n.EndsLike 0 n' m.dispatches)) ∧
    (∀ pages n n',
      (m.dispatching pages request channel outer nested).Reaches n →
      (m.dispatching pages request channel outer nested).Reaches n' →
      m.Undisturbed n m.dispatches channel → m.Undisturbed n' m.dispatches channel →
        n.built m.dispatches <+: pages.map Page.name ∧
        (n.story m.dispatches <+: n'.story m.dispatches ∨
          n'.story m.dispatches <+: n.story m.dispatches) ∧
        (n.Finished m.dispatches → n'.Finished m.dispatches →
          n'.story m.dispatches = n.story m.dispatches ∧ n.EndsLike 0 n' m.dispatches)) := by
  refine ⟨?_, ?_, ?_⟩
  . intro before page after n n' hn hn' hu hu' hfinished hrejected
    obtain ⟨steps, hf⟩ := exists_follows h hc hn hu
    obtain ⟨steps', hf'⟩ := exists_follows h hc hn' hu'
    rw [rejected_mem_iff hf] at hrejected
    have hwithout := entering_without (arrival_shares m before (page :: after) after) rfl _ hrejected
    apply story_without hwithout hf hfinished hf'
  . intro before page after other n n' hn hn' hu hu' hfinished hrejected
    -- the page that does not reject is the last one that the two dispatches share
    rw [List.append_cons] at hn hn'
    obtain ⟨steps, hf⟩ := exists_follows h hc hn hu
    obtain ⟨steps', hf'⟩ := exists_follows h hc hn' hu'
    have hshared : before.length + 1 = (before ++ [page]).length := by simp
    rw [rejected_mem_iff hf, hshared] at hrejected
    have hlike := entering_alike (arrival_shares m (before ++ [page]) after other) rfl (by simp) _
      hrejected
    have ⟨hstory, hends⟩ := story_shared hlike hf hfinished hf'
    refine ⟨?_, ?_, hstory, hends⟩
    . apply built_prefix_of_shares hlike (entering_tracks rfl _) hf rfl
    . apply hstory.filterMap
  . intro pages n n' hn hn' hu hu'
    obtain ⟨steps, hf⟩ := exists_follows h hc hn hu
    obtain ⟨steps', hf'⟩ := exists_follows h hc hn' hu'
    have htracks := @entering_tracks (m.arrival pages request channel outer nested) settings
      m.decorators rfl (!m.pool.isFull)
    refine ⟨?_, story_same hf hf'⟩
    apply built_of_tracks (htracks.course steps) hf

def lonelyPage (name : String) (u : HandlerUnit) : Page :=
  ⟨name, fun _ => .pure (.ok ⟨name, [.unit u]⟩)⟩

def refusingPage : Page := lonelyPage "Refuse" ⟨.ok "Refuse", fun _ => .decide .rejected⟩

def answeringPage : Page := lonelyPage "Answer" (.respond .ok (some (.text "Hello")))

def answered (pages : List Page) : Machine :=
  ((single .plain []).dispatching pages (.new .zero .get "/") 0 0 false).settle 8

theorem undisturbed_answered {pages : List Page}
    (hdecorators : (answered pages).decorators = [])
    (h : (answered pages).journal.all (fun e => (e matches .closed _) = false) = true) :
    (single .plain []).Undisturbed (answered pages) 0 0 where
  decorators := hdecorators
  closing before after heq := by
    rw [heq] at h
    simp at h

theorem end_of_two_pages :
    (answered [refusingPage, answeringPage]).Finished 0 ∧
      .rejected 0 1 ∈ (answered [refusingPage, answeringPage]).journal ∧
      (answered [answeringPage]).Finished 0 ∧
      (answered [refusingPage, answeringPage]).EndsLike 1 (answered [answeringPage]) 0 := by
  have hfinished : (answered [refusingPage, answeringPage]).Finished 0 :=
    ⟨_, _, List.mem_of_getElem? (i := 7) rfl⟩
  have hfinished' : (answered [answeringPage]).Finished 0 :=
    ⟨_, _, List.mem_of_getElem? (i := 4) rfl⟩
  have hrejected : .rejected 0 1 ∈ (answered [refusingPage, answeringPage]).journal :=
    List.mem_of_getElem? (i := 3) rfl
  have hends := (Reachable.registration_order_is_priority (reachable_single .plain [])
    Nat.zero_lt_one (.new .zero .get "/") 0 false).1 [] refusingPage [answeringPage] _ _
    (reaches_settle _ 8) (reaches_settle _ 8) (undisturbed_answered rfl rfl)
    (undisturbed_answered rfl rfl) hfinished hrejected
  obtain ⟨first, es, last, hes, hstory, hpre, hlike⟩ := hends
  exact ⟨hfinished, hrejected, hfinished', (hlike hfinished').2⟩

end Machine
end PageDispatch
