import PageDispatch.Proofs.Dispatch.Hush

/-!
This module contains the verification that a dispatch falls silent once its channel is closed. What
was begun by then is brought to its end, and nothing else is begun.
-/

namespace PageDispatch

namespace Event

def evaluates (i : Nat) : Event → Bool
  | evaluating owner _ _ _ => decide (owner = some i)
  | _ => false

def builds (i : Nat) : Event → Bool
  | building j _ => decide (j = i)
  | _ => false

def isArrival : Event → Bool
  | received _ _ _ => true
  | _ => false

end Event

/-- What happened for a dispatch, among other things. -/
def ofDispatch (i : Nat) (es : List Event) : List Event := es.filter fun e => e.dispatch? = some i

/--
Whether a dispatch falls silent after some events: nothing is called in its name any more, but for
the unit that was being instantiated, and for one page.
-/
structure FallsSilent (i : Nat) (before after : List Event) : Prop where
  instantiates : ∀ spec, .instantiating (some i) spec ∉ after
  reports : ∀ report, .reporting (some i) report ∉ after
  sends : ∀ channel r, .sending i channel r ∉ after
  evaluates : after.countP (·.evaluates i) ≤ 1
  midway : after.any (·.evaluates i) = true →
    ∃ spec, (ofDispatch i before).getLast? = some (.instantiating (some i) spec)
  builds : after.countP (·.builds i) ≤ 1

section Fades

variable {before es first rest : List Event} {e : Event}

theorem countP_le_one_of_length {α : Type} {p : α → Bool} {l : List α} {n : Nat}
    (h : ∀ first a rest, l = first ++ a :: rest → p a = true → first.length = n) :
    l.countP p ≤ 1 := by
  induction l generalizing n with
  | nil => exact Nat.zero_le 1
  | cons x l ih =>
    cases hx : p x with
    | false =>
      rw [List.countP_cons_of_neg (by simp [hx])]
      refine @ih (n - 1) ?_
      intro first a rest heq ha
      have hlen := h (x :: first) a rest (by rw [heq]; rfl) ha
      rw [← hlen]
      rfl
    | true =>
      have hzero : l.countP p = 0 := by
        rw [List.countP_eq_zero]
        intro a hmem ha
        obtain ⟨first, rest, heq⟩ := List.append_of_mem hmem
        have hlen := h (x :: first) a rest (by rw [heq]; rfl) ha
        rw [← h [] x l rfl hx] at hlen
        cases hlen
      rw [List.countP_cons_of_pos hx, hzero]

theorem Fades.not_mem (h : Fades before es) (hcall : e.isCall = true)
    (hnot : ∀ last : Event, last.leadsTo e = false) : e ∉ es := by
  intro hmem
  obtain ⟨first, rest, heq⟩ := List.append_of_mem hmem
  obtain ⟨last, -, hleads⟩ := h first e rest heq hcall
  rw [hnot last] at hleads
  cases hleads

theorem leadsTo_instantiating (last : Event) (owner : Option Nat) (spec : UnitSpec) :
    last.leadsTo (.instantiating owner spec) = false := by
  cases last <;> rfl

theorem Fades.instantiating_of_evaluating {owner : Option Nat} {position : Nat} {unit : String}
    {view : UnitView} (h : Fades before es)
    (heq : es = first ++ .evaluating owner position unit view :: rest) :
    first = [] ∧ ∃ owner spec, before.getLast? = some (.instantiating owner spec) := by
  obtain ⟨last, hlast, hleads⟩ := h first _ rest heq rfl
  have hmade : ∃ owner spec, last = .instantiating owner spec := by
    cases last <;> first | exact ⟨_, _, rfl⟩ | cases hleads
  obtain ⟨maker, spec, rfl⟩ := hmade
  cases List.eq_nil_or_concat first with
  | inl hnil =>
    subst hnil
    rw [List.append_nil] at hlast
    exact ⟨rfl, maker, spec, hlast⟩
  | inr hconcat =>
    -- a unit that is instantiated too late would be called on a closed channel
    obtain ⟨init, x, rfl⟩ := hconcat
    rw [List.concat_eq_append, ← List.append_assoc, List.getLast?_concat] at hlast
    injection hlast with hlast
    subst hlast
    refine absurd ?_ (h.not_mem rfl fun last => leadsTo_instantiating last maker spec)
    rw [heq, List.concat_eq_append]
    simp

theorem Fades.arrival_of_building {i : Nat} {page : String} (h : Fades before es)
    (heq : es = first ++ .building i page :: rest) :
    ∃ last, (before ++ first).getLast? = some last ∧ last.isArrival = true := by
  obtain ⟨last, hlast, hleads⟩ := h first _ rest heq rfl
  refine ⟨last, hlast, ?_⟩
  cases last <;> first | rfl | cases hleads

end Fades

section Silence

variable {i : Nat} {before after es : List Event}

theorem mem_ofDispatch {e : Event} (h : e ∈ es) (hown : e.dispatch? = some i) :
    e ∈ ofDispatch i es :=
  List.mem_filter.mpr ⟨h, decide_eq_true hown⟩

theorem countP_ofDispatch {p : Event → Bool} (hp : ∀ e, p e = true → e.dispatch? = some i) :
    (ofDispatch i es).countP p = es.countP p := by
  unfold ofDispatch
  rw [List.countP_filter]
  congr 1
  funext e
  cases hpe : p e with
  | false => rfl
  | true => simp [hp e hpe]

theorem evaluates_eq_true {e : Event} (h : e.evaluates i = true) :
    ∃ position unit view, e = .evaluating (some i) position unit view := by
  cases e with
  | evaluating owner position unit view =>
    exact ⟨position, unit, view, by rw [of_decide_eq_true h]⟩
  | _ => cases h

theorem builds_eq_true {e : Event} (h : e.builds i = true) : ∃ page, e = .building i page := by
  cases e with
  | building j page => exact ⟨page, by rw [of_decide_eq_true h]⟩
  | _ => cases h

theorem dispatch?_of_evaluates {e : Event} (h : e.evaluates i = true) : e.dispatch? = some i := by
  obtain ⟨position, unit, view, rfl⟩ := evaluates_eq_true h
  rfl

theorem dispatch?_of_builds {e : Event} (h : e.builds i = true) : e.dispatch? = some i := by
  obtain ⟨page, rfl⟩ := builds_eq_true h
  rfl

/-- An arrival is the first thing that happens to a dispatch. -/
def ArrivesFirst (es : List Event) : Prop :=
  ∀ first e rest, es = first ++ e :: rest → e.isArrival = true → first = []

theorem fallsSilent (h : Fades (ofDispatch i before) (ofDispatch i after))
    (harrival : ArrivesFirst (ofDispatch i before ++ ofDispatch i after)) :
    FallsSilent i before after where
  instantiates spec hmem :=
    h.not_mem rfl (fun last => leadsTo_instantiating last _ _) (mem_ofDispatch hmem rfl)
  reports report hmem := by
    refine h.not_mem rfl ?_ (mem_ofDispatch hmem rfl)
    intro last
    cases last <;> rfl
  sends channel r hmem := by
    refine h.not_mem rfl ?_ (mem_ofDispatch hmem rfl)
    intro last
    cases last <;> rfl
  evaluates := by
    rw [← countP_ofDispatch fun _ => dispatch?_of_evaluates]
    refine @countP_le_one_of_length _ _ _ 0 ?_
    intro first e rest heq he
    obtain ⟨position, unit, view, rfl⟩ := evaluates_eq_true he
    rw [(h.instantiating_of_evaluating heq).1]
    rfl
  midway hany := by
    obtain ⟨e, hmem, he⟩ := List.any_eq_true.mp hany
    obtain ⟨position, unit, view, rfl⟩ := evaluates_eq_true he
    obtain ⟨first, rest, heq⟩ := List.append_of_mem (mem_ofDispatch hmem rfl)
    obtain ⟨-, owner, spec, hlast⟩ := h.instantiating_of_evaluating heq
    have hown := (List.mem_filter.mp (List.mem_of_getLast? hlast)).2
    rw [hlast]
    exact ⟨spec, by rw [show owner = some i from of_decide_eq_true hown]⟩
  builds := by
    rw [← countP_ofDispatch fun _ => dispatch?_of_builds]
    refine @countP_le_one_of_length _ _ _ (1 - (ofDispatch i before).length) ?_
    intro first e rest heq he
    obtain ⟨page, rfl⟩ := builds_eq_true he
    obtain ⟨last, hlast, harrives⟩ := h.arrival_of_building heq
    obtain ⟨init, hinit⟩ := List.getLast?_eq_some_iff.mp hlast
    -- the page is built right after the arrival, and nothing happened before that
    have hnil : init = [] := by
      refine harrival init last (.building i page :: rest) ?_ harrives
      rw [heq, ← List.append_assoc, hinit, List.append_assoc]
      rfl
    have hlength := congrArg List.length hinit
    rw [hnil, List.length_append] at hlength
    change _ = 1 at hlength
    omega

theorem FallsSilent.of_closing {id : ChannelId}
    (h : FallsSilent i (before ++ [.closed id]) after) :
    FallsSilent i before after where
  instantiates := h.instantiates
  reports := h.reports
  sends := h.sends
  evaluates := h.evaluates
  midway hany := by
    obtain ⟨spec, hlast⟩ := h.midway hany
    rw [ofDispatch, List.filter_append, List.filter_cons_of_neg (by simp [Event.dispatch?]),
      List.filter_nil, List.append_nil] at hlast
    exact ⟨spec, hlast⟩
  builds := h.builds

end Silence

namespace Strand

variable {closed : Prop} {i : Nat} {channel : ChannelId} {request : Request} {s : Strand}

theorem not_isArrival_of_isInner {es : List Event} (h : ∀ e ∈ es, e.isInner = true) :
    ∀ e ∈ es, e.isArrival = false := by
  intro e he
  have hinner := h e he
  cases e <;> first | rfl | cases hinner

theorem Tells.arrives (h : s.Tells closed i channel request) :
    ∃ es, s.events = .received i channel request :: es ∧ ∀ e ∈ es, e.isArrival = false := by
  cases h with
  | busy howner hid hch hes => exact ⟨_, rfl, not_isArrival_of_isInner hes⟩
  | abandoned hes hd hs hc =>
    refine ⟨_, rfl, List.forall_mem_append.mpr ⟨not_isArrival_of_isInner hes, ?_⟩⟩
    simp [Event.isArrival]
  | pending hes hd hs =>
    refine ⟨_, rfl, List.forall_mem_append.mpr ⟨not_isArrival_of_isInner hes, ?_⟩⟩
    simp [Event.isArrival]
  | answered hes hd hs hlast =>
    refine ⟨_, rfl, List.forall_mem_append.mpr ⟨not_isArrival_of_isInner hes, ?_⟩⟩
    cases hlast <;> simp [Event.isArrival]

theorem Tells.arrivesFirst (h : s.Tells closed i channel request) : ArrivesFirst s.events := by
  obtain ⟨es, hevents, hes⟩ := h.arrives
  intro first e rest heq he
  rw [hevents] at heq
  cases first with
  | nil => rfl
  | cons x first =>
    injection heq with _ heq
    have hmem : e ∈ es := by
      rw [heq]
      exact List.mem_append_right _ List.mem_cons_self
    rw [hes e hmem] at he
    cases he

end Strand

namespace Machine

variable {settings : Settings} {m n c : Machine} {i : Nat} {channel : ChannelId}
  {request : Request} {before after : List Event}

theorem Reachable.exists_tells_of_received (h : Reachable settings m)
    (hmem : .received i channel request ∈ m.journal) :
    ∃ request, m.Tells i channel request := by
  have hstrand : .received i channel request ∈ (m.strand i).events :=
    mem_strand_of_mem_journal hmem rfl
  obtain ⟨channel', request', ht⟩ := h.exists_tells (h.sane.1.fresh.lt_of_mem_journal hmem rfl)
  obtain ⟨es, hevents, hes⟩ := ht.arrives
  rw [hevents] at hstrand
  cases List.mem_cons.mp hstrand with
  | inl hfirst =>
    cases hfirst
    exact ⟨_, ht⟩
  | inr hrest => cases hes _ hrest

theorem Tells.lines (h : m.Tells i channel request) : m.Lines i channel := by
  intro id request' hmem
  obtain ⟨es, hevents, hes⟩ := h.arrives
  have hstrand : .received i id request' ∈ (m.strand i).events :=
    mem_strand_of_mem_journal hmem rfl
  rw [hevents] at hstrand
  cases List.mem_cons.mp hstrand with
  | inl hfirst =>
    cases hfirst
    rfl
  | inr hrest => cases hes _ hrest

theorem Reachable.serves (h : Reachable settings m) (hlines : m.Lines i channel) :
    m.Serves i channel := by
  have hm := h.sane.1
  cases Nat.lt_or_ge i m.dispatches with
  | inr hnew => exact hm.fresh.serves hnew
  | inl hold =>
    obtain ⟨id, request, ht⟩ := h.exists_tells hold
    have heq := hlines id request (mem_journal_of_mem_strand ht.received_mem)
    exact heq ▸ ht.serves hm

theorem Reaches.deeds (h : c.Reaches m) (hc : Reachable settings c) (hlines : m.Lines i channel) :
    Deeds i channel c m := by
  induction h with
  | refl => exact .refl
  | @tail mid last hmid hlast ih =>
    have hreach := hc.reaches hmid
    have hbefore := hlines.of_grows (hlast.sane hreach.sane.1).2
    exact (ih hbefore).trans (hlast.deeds hreach.sane.1 (hreach.serves hbefore) hlines)

theorem fallsSilent_of_deeds (h : Deeds i channel c m) (hlt : channel < c.wires.length)
    (hc : c.isOpen channel = false) (ht : m.Tells i channel request)
    (hj : m.journal = c.journal ++ after) : FallsSilent i c.journal after := by
  obtain ⟨es, hes, hfades⟩ := h.fades hlt hc
  have hevents : (m.strand i).events = ofDispatch i c.journal ++ ofDispatch i after := by
    change ofDispatch i m.journal = _
    rw [hj]
    apply List.filter_append
  have heq : ofDispatch i after = es := List.append_cancel_left (hevents.symm.trans hes)
  have harrival := ht.arrivesFirst
  rw [hevents] at harrival
  exact fallsSilent (heq ▸ hfades) harrival

theorem sends_eq_nil (hj : m.journal = before ++ after) (h : FallsSilent i before after)
    (hnone : ∀ id r, .sending i id r ∉ before) : m.sends i = [] := by
  apply List.filterMap_eq_nil_iff.mpr
  intro e he
  unfold Event.sending?
  split
  . next j id r =>
    refine if_neg ?_
    rintro rfl
    rw [hj] at he
    cases List.mem_append.mp he with
    | inl hbefore => exact hnone id r hbefore
    | inr hafter => exact h.sends id r hafter
  . rfl

/--
Once the channel of a dispatch is closed, whoever closes it and when, nothing is called any more in
the name of the dispatch, but for what was begun before. If no response was sent by then, none is.
-/
theorem Reachable.falls_silent_once_closed (h : Reachable settings m)
    (hreceived : .received i channel request ∈ m.journal) :
    (∀ before after, m.journal = before ++ .closed channel :: after →
      (∃ j request, .received j channel request ∈ before) →
        FallsSilent i before after ∧
        ((∀ id r, .sending i id r ∉ before) → m.sends i = [])) ∧
    (∀ c, Reachable settings c → c.Reaches m → channel < c.wires.length →
      c.isOpen channel = false →
        ∃ after, m.journal = c.journal ++ after ∧ FallsSilent i c.journal after ∧
          ((∀ id r, .sending i id r ∉ c.journal) → m.sends i = [])) := by
  obtain ⟨request, ht⟩ := h.exists_tells_of_received hreceived
  refine ⟨?_, ?_⟩
  . intro before after hj hexists
    obtain ⟨pages, decorators, hreach⟩ := h
    have hnew : Reachable settings (new settings pages decorators) := ⟨pages, decorators, .refl⟩
    have hdeeds := Reaches.deeds hreach hnew ht.lines
    obtain ⟨c, hbefore, rfl, hafter⟩ := hdeeds.exists_closing hj (List.nil_prefix)
    obtain ⟨j, first, hfirst⟩ := hexists
    have hlt : channel < c.wires.length := hbefore.received_lt nofun hfirst
    have hclosed : (c.close channel).isOpen channel = false := by
      rw [isOpen_close, if_pos rfl]
    have hj' : m.journal = (c.journal ++ [.closed channel]) ++ after := by
      rw [hj, List.append_assoc]
      rfl
    have hsilent : FallsSilent i (c.journal ++ [.closed channel]) after := by
      refine fallsSilent_of_deeds hafter ?_ hclosed ht hj'
      rw [length_wires_close]
      exact hlt
    refine ⟨hsilent.of_closing, ?_⟩
    intro hnone
    refine sends_eq_nil hj' hsilent ?_
    intro id r hmem
    cases List.mem_append.mp hmem with
    | inl hbefore => exact hnone id r hbefore
    | inr hclosing => cases List.mem_singleton.mp hclosing
  . intro c hc hreach hlt hclosed
    obtain ⟨after, hj⟩ := (hreach.sane hc.sane.1).2.journal
    have hsilent := fallsSilent_of_deeds (Reaches.deeds hreach hc ht.lines) hlt hclosed ht hj.symm
    exact ⟨after, hj.symm, hsilent, fun hnone => sends_eq_nil hj.symm hsilent hnone⟩

/-- A page whose first unit closes the connection. -/
def hangingPage : Page where
  name := "Hang"
  build _ := .pure (.ok ⟨"Hang", [
    .unit ⟨.ok "Hang up",
      fun _ => ⟨[.signal .close], .empty, [], .decided (.consumed [] false)⟩⟩,
    .unit ⟨.ok "Answer", fun _ => .decide (.respondWith .ok none)⟩]⟩)

def hungUp : Machine :=
  ((single .plain [hangingPage]).dispatch (.new .zero .get "/") 0 0 false).settle 8

theorem silent_of_hungUp :
    FallsSilent 0 (hungUp.journal.take 3) (hungUp.journal.drop 4) ∧ hungUp.sends 0 = [] := by
  have hreach : Reachable .plain hungUp := (reachable_single .plain [hangingPage]).reaches
    ((Relation.ReflTransGen.single (.dispatch _ Nat.zero_lt_one)).trans (reaches_settle _ 8))
  have hjournal : hungUp.journal
      = hungUp.journal.take 3 ++ .closed 0 :: hungUp.journal.drop 4 := rfl
  have hfirst : .received 0 0 (.new .zero .get "/") ∈ hungUp.journal.take 3 := List.mem_cons_self
  have hreceived : .received 0 0 (.new .zero .get "/") ∈ hungUp.journal :=
    List.mem_of_mem_take hfirst
  obtain ⟨hsilent, hsends⟩ := (Reachable.falls_silent_once_closed hreach hreceived).1 _ _ hjournal
    ⟨0, _, hfirst⟩
  refine ⟨hsilent, hsends ?_⟩
  intro id r hmem
  have hnone : (hungUp.journal.take 3).filterMap (Event.sending? 0) = [] := rfl
  cases List.filterMap_eq_nil_iff.mp hnone _ hmem

end Machine

end PageDispatch
