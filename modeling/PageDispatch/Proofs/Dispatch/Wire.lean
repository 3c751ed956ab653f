import PageDispatch.Engine.Journal
import PageDispatch.Proofs.Dispatch.Census

/-!
This module contains the verification that the summary of a dispatch agrees with what its channel
was given: at most one response, of the status that the summary tells, and none if the dispatch was
given up.
-/

namespace PageDispatch

namespace Event

def sending? (i : Nat) : Event → Option (ChannelId × Response)
  | sending dispatch channel r => if dispatch = i then some (channel, r) else none
  | _ => none

def withheld? (i : Nat) : Event → Option (ChannelId × Response)
  | withheld dispatch channel r => if dispatch = i then some (channel, r) else none
  | _ => none

end Event

/-- What a line records of a response that it is given while its channel is open. -/
def Wire.records? (wire : Wire) (r : Response) : Option SentResponse :=
  match wire.refusal with
  | some _ => none
  | none => (wire.channel.record r).toOption

/-- A body is bound to the channel it was made for, which is not the one of a nested dispatch. -/
def Response.passedTo (r : Response) (id outer : ChannelId) : Response :=
  if id = outer then r else { r with body := r.body.detached }

theorem Response.passedTo_tells (r : Response) (id outer : ChannelId) :
    (r.passedTo id outer).status = r.status ∧ (r.passedTo id outer).headers = r.headers ∧
      (r.passedTo id outer).chunked = r.chunked := by
  unfold Response.passedTo
  split <;> exact ⟨rfl, rfl, rfl⟩

namespace Machine

/-- The responses that were passed to a channel for a dispatch, in order. -/
def sends (m : Machine) (i : Nat) : List (ChannelId × Response) :=
  m.journal.filterMap (Event.sending? i)

/-- The responses of a dispatch whose channel was closed when they were due. -/
def withholds (m : Machine) (i : Nat) : List (ChannelId × Response) :=
  m.journal.filterMap (Event.withheld? i)

def owes (m : Machine) (i : Nat) : List (ChannelId × Response) :=
  m.timers.filterMap fun timer => timer.alarm.delivery? i

/--
Where the response of a finished dispatch is: sent, or still owed, or lost to a closed channel.
-/
inductive Disposes (m : Machine) (i : Nat) (channel : ChannelId) (r : Response) : Prop
  | sent (hs : m.sends i = [(channel, r)]) (ho : m.owes i = []) (hw : m.withholds i = [])
  | owed (hs : m.sends i = []) (ho : m.owes i = [(channel, r)]) (hw : m.withholds i = [])
  | lost (hs : m.sends i = []) (ho : m.owes i = []) (hw : m.withholds i = [(channel, r)])
    (hopen : m.isOpen channel = false)
    (hc : ∃ before after, m.journal = before ++ .withheld i channel r :: after ∧
      .closed channel ∈ before)

/--
Passing the response of a dispatch to its channel. An open channel is given it, once, and that is
noted in the journal; what it records then has the status and the headers of the response. A closed
channel is given nothing, and no other channel is.
-/
structure Passes (m : Machine) (i : Nat) (channel outer : ChannelId) (r : Response)
    (m' : Machine) : Prop where
  passed : ∀ wire, m.wires[channel]? = some wire → wire.channel.isOpen = true →
    m'.sends i = m.sends i ++ [(channel, r)] ∧
    m'.sent channel = m.sent channel ++ (wire.records? (r.passedTo channel outer)).toList ∧
    ∀ s, wire.records? (r.passedTo channel outer) = some s →
      s.status = r.status ∧ s.headers = r.headers ∧ s.chunked = r.chunked
  closed : m.isOpen channel = false →
    m'.sends i = m.sends i ∧ m'.sent channel = m.sent channel
  others : ∀ other, other ≠ channel → m'.sent other = m.sent other

variable {m : Machine} {i : Nat} {channel : ChannelId} {request : Request}

theorem filterMap_journal {β : Type} {f : Event → Option β}
    (hf : ∀ e, e.dispatch? ≠ some i → f e = none) :
    m.journal.filterMap f = (m.strand i).events.filterMap f := by
  unfold strand
  rw [List.filterMap_filter]
  congr
  funext e
  cases Decidable.em (e.dispatch? = some i) with
  | inl h => simp [h]
  | inr h => simp [h, hf e h]

theorem sends_eq : m.sends i = (m.strand i).events.filterMap (Event.sending? i) := by
  refine filterMap_journal ?_
  intro e he
  unfold Event.sending?
  split
  . next dispatch channel r =>
    rw [if_neg]
    rintro rfl
    exact he rfl
  . rfl

theorem withholds_eq : m.withholds i = (m.strand i).events.filterMap (Event.withheld? i) := by
  refine filterMap_journal ?_
  intro e he
  unfold Event.withheld?
  split
  . next dispatch channel r =>
    rw [if_neg]
    rintro rfl
    exact he rfl
  . rfl

theorem filterMap_of_inner {β : Type} {f : Event → Option β} {es last : List Event}
    (hf : ∀ e, e.isInner = true → f e = none) (hreceived : f (.received i channel request) = none)
    (hes : ∀ e ∈ es, e.isInner = true) :
    (Event.received i channel request :: (es ++ last)).filterMap f = last.filterMap f := by
  rw [List.filterMap_cons_none hreceived, List.filterMap_append,
    List.filterMap_eq_nil_iff.mpr (fun e he => hf e (hes e he)), List.nil_append]

theorem filterMap_sending?_of_inner {es last : List Event} (hes : ∀ e ∈ es, e.isInner = true) :
    (Event.received i channel request :: (es ++ last)).filterMap (Event.sending? i)
      =
    last.filterMap (Event.sending? i) := by
  apply filterMap_of_inner
  . intro e he
    cases e <;> first | rfl | cases he
  . rfl
  . assumption

theorem sends_of_strand {es last : List Event}
    (hevents : (m.strand i).events = .received i channel request :: (es ++ last))
    (hes : ∀ e ∈ es, e.isInner = true) : m.sends i = last.filterMap (Event.sending? i) := by
  rw [sends_eq]
  rw [hevents]
  apply filterMap_sending?_of_inner hes

theorem withholds_of_strand {es last : List Event}
    (hevents : (m.strand i).events = .received i channel request :: (es ++ last))
    (hes : ∀ e ∈ es, e.isInner = true) : m.withholds i = last.filterMap (Event.withheld? i) := by
  rw [withholds_eq, hevents]
  refine filterMap_of_inner ?_ rfl hes
  intro e he
  cases e <;> first | rfl | cases he

theorem finished_mem_last {es last : List Event} {nested : Bool} {s : DispatchSummary}
    (hevents : (m.strand i).events = .received i channel request :: (es ++ last))
    (hes : ∀ e ∈ es, e.isInner = true) (h : .finished i nested s ∈ m.journal) :
    .finished i nested s ∈ last := by
  have hmem : .finished i nested s ∈ (m.strand i).events := mem_strand_of_mem_journal h rfl
  rw [hevents] at hmem
  cases List.mem_cons.mp hmem with
  | inl hfirst => cases hfirst
  | inr hrest =>
    cases List.mem_append.mp hrest with
    | inl hinner => cases hes _ hinner
    | inr hlast => exact hlast

theorem owes_eq_nil (h : (m.strand i).due = 0) : m.owes i = [] := (Multiset.coe_eq_zero _).mp h

theorem owes_eq_singleton {r : Response} (h : (m.strand i).due = {(channel, r)}) :
    m.owes i = [(channel, r)] := Multiset.coe_eq_singleton.mp h

structure Agrees (m : Machine) (i : Nat) (channel : ChannelId) : Prop where
  once : (m.sends i).length ≤ 1
  unfinished : (∀ nested s, .finished i nested s ∉ m.journal) → m.sends i = [] ∧ m.owes i = []
  abandoned : ∀ nested s, .finished i nested s ∈ m.journal → s.disposition = .abandoned →
    s.status = none ∧ m.sends i = [] ∧ m.owes i = []
  answered : ∀ nested s, .finished i nested s ∈ m.journal → s.disposition ≠ .abandoned →
    ∃ r, s.status = some r.status ∧ m.Disposes i channel r
  /-- Unless foreign code escapes from the limits that the engine sets around units. -/
  stillOpen : m.isOpen channel = true → .escaped (some i) ∉ m.journal →
    ∀ nested s, .finished i nested s ∈ m.journal →
      s.disposition ≠ .abandoned ∧ (m.sends i).length + (m.owes i).length = 1

theorem closed_before_withheld {r : Response} {es : List Event} (hm : m.Honest)
    (hevents : (m.strand i).events = .received i channel request :: es)
    (h : .withheld i channel r ∈ es) :
    ∃ before after, m.journal = before ++ .withheld i channel r :: after ∧
      .closed channel ∈ before := by
  have hmem : .withheld i channel r ∈ (m.strand i).events := by
    rw [hevents]
    exact List.mem_cons_of_mem _ h
  obtain ⟨before, after, hjournal⟩ := List.append_of_mem (mem_journal_of_mem_strand hmem)
  refine ⟨before, after, hjournal, hm.withheld before after i channel r hjournal ⟨request, ?_⟩⟩
  change m.journal.filter (fun e => e.dispatch? = some i) = _ at hevents
  have hkeep : decide ((Event.withheld i channel r).dispatch? = some i) = true := decide_eq_true rfl
  rw [hjournal, List.filter_append,
    List.filter_cons_of_pos (p := fun e : Event => e.dispatch? = some i) hkeep] at hevents
  -- the arrival is the first event of the dispatch, and it is not the one that was withheld
  cases hbefore : before.filter fun e => e.dispatch? = some i with
  | nil =>
    rw [hbefore] at hevents
    cases hevents
  | cons first rest =>
    rw [hbefore] at hevents
    injection hevents with hfirst
    have hfiltered : first ∈ before.filter fun e => e.dispatch? = some i := by
      rw [hbefore]
      exact List.mem_cons_self
    rw [← hfirst]
    exact (List.mem_filter.mp hfiltered).1

theorem agrees_of_silent (hsends : m.sends i = []) (howes : m.owes i = [])
    (h : ∀ nested s, .finished i nested s ∈ m.journal →
      s.disposition = .abandoned ∧ s.status = none ∧
        (m.isOpen channel = false ∨ .escaped (some i) ∈ m.journal)) : m.Agrees i channel where
  once := by
    rw [hsends]
    exact Nat.zero_le _
  unfinished _ := ⟨hsends, howes⟩
  abandoned nested s hs _ := ⟨(h nested s hs).2.1, hsends, howes⟩
  answered nested s hs hd := absurd (h nested s hs).1 hd
  stillOpen hopen hescaped nested s hs := by
    cases (h nested s hs).2.2 with
    | inl hclosed =>
      rw [hopen] at hclosed
      cases hclosed
    | inr hmem => exact absurd hmem hescaped

theorem agrees_of_disposes {nested : Bool} {summary : DispatchSummary} {r : Response}
    (hmem : .finished i nested summary ∈ m.journal)
    (honly : ∀ nested s, .finished i nested s ∈ m.journal → s = summary)
    (hd : summary.disposition ≠ .abandoned) (hstatus : summary.status = some r.status)
    (h : m.Disposes i channel r) : m.Agrees i channel where
  once := by
    cases h with
    | sent hs ho hw => rw [hs, List.length_singleton]
    | owed hs ho hw => rw [hs]; exact Nat.zero_le _
    | lost hs ho hw hclosed hc => rw [hs]; exact Nat.zero_le _
  unfinished hnone := absurd hmem (hnone nested summary)
  abandoned nested s hs habandoned := by
    rw [honly nested s hs] at habandoned
    exact absurd habandoned hd
  answered nested s hs _ := by
    rw [honly nested s hs]
    exact ⟨r, hstatus, h⟩
  stillOpen hopen _ nested s hs := by
    rw [honly nested s hs]
    refine ⟨hd, ?_⟩
    cases h with
    | sent hs ho hw => rw [hs, ho]; rfl
    | owed hs ho hw => rw [hs, ho]; rfl
    | lost hs ho hw hclosed hc =>
      rw [hopen] at hclosed
      cases hclosed

theorem agrees_of_closing {es last : List Event} {nested : Bool} {summary : DispatchSummary}
    {r : Response} (hm : m.Honest)
    (hs : m.strand i = ⟨0, 0, .received i channel request :: (es ++ last)⟩)
    (hes : ∀ e ∈ es, e.isInner = true) (hd : summary.disposition ≠ .abandoned)
    (hstatus : summary.status = some r.status)
    (hlast : Strand.Closing (m.isOpen channel = false) i channel r (.finished i nested summary)
      last) : m.Agrees i channel := by
  have hevents := congrArg Strand.events hs
  have hsends := sends_of_strand hevents hes
  have hwithholds := withholds_of_strand hevents hes
  have howes : m.owes i = [] := owes_eq_nil (congrArg Strand.due hs)
  have hmem : .finished i nested summary ∈ m.journal := by
    refine mem_journal_of_mem_strand (i := i) ?_
    rw [hevents]
    refine List.mem_cons_of_mem _ (List.mem_append_right _ ?_)
    cases hlast <;> simp
  have honly : ∀ nested s, .finished i nested s ∈ m.journal → s = summary := by
    intro other s hfinished
    have hlast' := finished_mem_last hevents hes hfinished
    have hpair : other = nested ∧ s = summary := by
      cases hlast <;> simpa using hlast'
    exact hpair.2
  have hlost : .withheld i channel r ∈ last →
      ∃ before after, m.journal = before ++ .withheld i channel r :: after ∧
        .closed channel ∈ before :=
    fun hw => closed_before_withheld hm hevents (List.mem_append_right _ hw)
  cases hlast with
  | sent =>
    have hnone : m.withholds i = [] := by simp [hwithholds, Event.withheld?, List.filterMap_cons]
    refine agrees_of_disposes hmem honly hd hstatus (.sent ?_ howes hnone)
    simp [hsends, Event.sending?, List.filterMap_cons]
  | withheld hc =>
    refine agrees_of_disposes hmem honly hd hstatus (.lost ?_ howes ?_ hc (hlost ?_))
    . simp [hsends, Event.sending?, List.filterMap_cons]
    . simp [hwithholds, Event.withheld?, List.filterMap_cons]
    . exact List.mem_cons_self
  | sentLater =>
    have hnone : m.withholds i = [] := by simp [hwithholds, Event.withheld?, List.filterMap_cons]
    refine agrees_of_disposes hmem honly hd hstatus (.sent ?_ howes hnone)
    simp [hsends, Event.sending?, List.filterMap_cons]
  | withheldLater hc =>
    refine agrees_of_disposes hmem honly hd hstatus (.lost ?_ howes ?_ hc (hlost ?_))
    . simp [hsends, Event.sending?, List.filterMap_cons]
    . simp [hwithholds, Event.withheld?, List.filterMap_cons]
    . exact List.mem_cons_of_mem _ List.mem_cons_self

section Passing

variable {wire : Wire} {id outer other : ChannelId} {r : Response}

theorem sent_eq (hw : m.wires[id]? = some wire) : m.sent id = wire.channel.sent := by
  rw [sent, hw]

theorem sent_log (e : Event) : (m.log e).sent id = m.sent id := rfl

theorem sent_close (id : ChannelId) : (m.close id).sent other = m.sent other := by
  simp only [sent, close, shut, log, List.getElem?_modify]
  cases m.wires[other]? with
  | none => rfl
  | some wire =>
    simp only [Option.map_eq_map, Option.map_some]
    split <;> rfl

theorem sent_closings (n : Nat) : (n.repeat (fun m => m.close id) m).sent other = m.sent other := by
  induction n with
  | zero => rfl
  | succ n ih => rw [Nat.repeat, sent_close, ih]

theorem sent_setChannel (hw : m.wires[id]? = some wire) (channel : Channel) :
    (m.setChannel id channel).sent id = channel.sent := by
  simp [sent, setChannel, hw]

theorem sent_setChannel_of_ne (h : other ≠ id) (channel : Channel) :
    (m.setChannel id channel).sent other = m.sent other := by
  simp [sent, setChannel, h.symm]

theorem tells_of_record {c : Channel} {s : SentResponse} (h : c.record r = .ok s) :
    s.status = r.status ∧ s.headers = r.headers ∧ s.chunked = r.chunked := by
  unfold Channel.record at h
  split at h
  . split at h
    . cases h
      exact ⟨rfl, rfl, rfl⟩
    . cases h
      exact ⟨rfl, rfl, rfl⟩
    . dsimp only at h
      split at h
      . cases h
        exact ⟨rfl, rfl, rfl⟩
      . cases h
      . cases h
  . cases h

theorem tells_of_records? {s : SentResponse} (h : wire.records? (r.passedTo id outer) = some s) :
    s.status = r.status ∧ s.headers = r.headers ∧ s.chunked = r.chunked := by
  obtain ⟨hstatus, hheaders, hchunked⟩ := Response.passedTo_tells r id outer
  rw [← hstatus, ← hheaders, ← hchunked]
  unfold Wire.records? at h
  cases hrefusal : wire.refusal with
  | some message =>
    rw [hrefusal] at h
    cases h
  | none =>
    rw [hrefusal] at h
    cases hrecord : wire.channel.record (r.passedTo id outer) with
    | ok done =>
      rw [hrecord] at h
      cases h
      exact tells_of_record hrecord
    | error e =>
      rw [hrecord] at h
      cases h

/-- A line that refuses a response, or fails on it, records nothing. -/
theorem sent_transmit (hw : m.wires[id]? = some wire) :
    (m.transmit id outer wire r).sent id
      =
    m.sent id ++ (wire.records? (r.passedTo id outer)).toList := by
  have hown : (if id = outer then r else { r with body := r.body.detached })
      = r.passedTo id outer := rfl
  unfold transmit
  rw [hown, sent_eq hw, Wire.records?]
  cases wire.refusal with
  | some message => exact (sent_eq hw).trans (List.append_nil _).symm
  | none =>
    dsimp only
    unfold Channel.send
    cases wire.channel.record (r.passedTo id outer) with
    | ok s => exact (sent_closings _).trans (sent_setChannel hw _)
    | error e =>
      refine ((sent_closings _).trans (sent_setChannel hw _)).trans ?_
      exact (List.append_nil _).symm

theorem sent_transmit_of_ne (h : other ≠ id) :
    (m.transmit id outer wire r).sent other = m.sent other := by
  unfold transmit
  cases wire.refusal with
  | some message => rfl
  | none =>
    dsimp only
    generalize wire.channel.send _ = done
    obtain ⟨result, channel⟩ := done
    cases result with
    | ok _ => exact (sent_closings _).trans (sent_setChannel_of_ne h _)
    | error e => exact (sent_closings _).trans (sent_setChannel_of_ne h _)

theorem sends_sendNow_of_open (h : m.isOpen id = true) :
    (m.sendNow i id outer r).sends i = m.sends i ++ [(id, r)] := by
  rw [sends_eq, strand_sendNow_of_open h, sends_eq, Strand.note, List.filterMap_append]
  simp [Event.sending?]

theorem passes_sendNow (m : Machine) (i : Nat) (id outer : ChannelId) (r : Response) :
    m.Passes i id outer r (m.sendNow i id outer r) where
  passed wire hw hopen := by
    have hisOpen : m.isOpen id = true := by
      rw [isOpen, hw]
      exact hopen
    refine ⟨sends_sendNow_of_open hisOpen, ?_, fun s hs => tells_of_records? hs⟩
    unfold sendNow
    rw [hw]
    dsimp only
    rw [if_pos hopen, ← sent_log (.sending i id r)]
    split
    . exact (sent_close id).trans (sent_transmit hw)
    . exact sent_transmit hw
  closed hclosed := by
    rw [sendNow_of_closed hclosed]
    refine ⟨?_, rfl⟩
    simp [sends, log, Event.sending?]
  others other hother := by
    unfold sendNow
    split
    . rfl
    . dsimp only
      split
      . split
        . rw [sent_close]
          exact sent_transmit_of_ne hother
        . exact sent_transmit_of_ne hother
      . rfl

end Passing

/--
Whatever happens, the summary of a dispatch agrees with what its channel was given. A response
counts as given exactly if it was passed to a channel that was open, which then records it, unless
the line refuses it or its body cannot be written.
-/
theorem Reachable.summary_agrees_with_wire {settings : Settings} (h : Reachable settings m)
    (hi : i < m.dispatches) :
    (∃ channel request, .received i channel request ∈ m.journal ∧ m.Agrees i channel) ∧
    ∀ (n : Machine) id outer r, n.Passes i id outer r (n.sendNow i id outer r) := by
  refine ⟨?_, fun n id outer r => passes_sendNow n i id outer r⟩
  obtain ⟨channel, request, ht⟩ := h.exists_tells hi
  refine ⟨channel, request, mem_journal_of_mem_strand ht.received_mem, ?_⟩
  have hm := h.sane.1.honest
  unfold Tells at ht
  generalize hs : m.strand i = s at ht
  have hdue := congrArg Strand.due hs
  have hevents := congrArg Strand.events hs
  cases ht with
  | @busy f d es howner hid hch hes =>
    dsimp only at hevents
    rw [← List.append_nil es] at hevents
    refine agrees_of_silent (sends_of_strand hevents hes) (owes_eq_nil hdue) ?_
    intro nested s hfinished
    cases finished_mem_last hevents hes hfinished
  | @abandoned es nested summary hes hd hstatus hc =>
    refine agrees_of_silent (sends_of_strand hevents hes) (owes_eq_nil hdue) ?_
    intro other s hfinished
    have hlast := finished_mem_last hevents hes hfinished
    cases List.mem_singleton.mp hlast
    refine ⟨hd, hstatus, hc.imp_right ?_⟩
    intro hescaped
    refine mem_journal_of_mem_strand (i := i) ?_
    rw [hevents]
    exact List.mem_cons_of_mem _ (List.mem_append_left _ hescaped)
  | @pending es nested summary r hes hd hstatus =>
    have hmem : .finished i nested summary ∈ m.journal := by
      refine mem_journal_of_mem_strand (i := i) ?_
      rw [hevents]
      exact List.mem_cons_of_mem _ (List.mem_append_right _ List.mem_cons_self)
    refine agrees_of_disposes hmem ?_ hd hstatus
      (.owed (sends_of_strand hevents hes) (owes_eq_singleton hdue)
        (withholds_of_strand hevents hes))
    intro other s hfinished
    have hlast := finished_mem_last hevents hes hfinished
    cases List.mem_singleton.mp hlast
    rfl
  | answered hes hd hstatus hlast => exact agrees_of_closing hm hs hes hd hstatus hlast

/-- A unit that answers, but later, and wants the connection closed. -/
def lingeringUnit : HandlerUnit where
  name := .ok "Linger"
  evaluate _ :=
    ⟨[], (Accumulator.insertRaw .empty .connection Response.close).setDelay (.ofMilliseconds 5), [],
      .decided (.respondWith .ok none)⟩

def lingeringPage : Page := ⟨"Linger", fun _ => .pure (.ok ⟨"Linger", [.unit lingeringUnit]⟩)⟩

def asked (pages : List Page) (steps : Nat) : Machine :=
  ((single .plain pages).dispatch (.new .zero .get "/") 0 0 false).settle steps

theorem reachable_asked (pages : List Page) (steps : Nat) : Reachable .plain (asked pages steps) :=
  (reachable_single .plain pages).reaches
    ((Relation.ReflTransGen.single (.dispatch _ Nat.zero_lt_one)).trans (reaches_settle _ steps))

theorem summary_agrees_with_wire_of_lingering :
    (∃ channel request, .received 0 channel request ∈ (asked [] 0).journal ∧
      (asked [] 0).Agrees 0 channel) ∧
    (∃ channel request, .received 0 channel request ∈ (asked [lingeringPage] 2).journal ∧
      (asked [lingeringPage] 2).Agrees 0 channel) ∧
    ∃ r : Response, r.status = .ok ∧ r.delay = some (.ofMilliseconds 5) ∧ r.closes = true ∧
      (asked [lingeringPage] 1).sends 0 = [] ∧ (asked [lingeringPage] 1).owes 0 = [(0, r)] ∧
      (asked [lingeringPage] 2).sends 0 = [(0, r)] ∧ (asked [lingeringPage] 2).owes 0 = [] ∧
      (asked [lingeringPage] 2).isOpen 0 = false ∧
      ((asked [lingeringPage] 2).sent 0).map SentResponse.status = [.ok] ∧
      (asked [lingeringPage] 1).Passes 0 0 0 r ((asked [lingeringPage] 1).sendNow 0 0 0 r) := by
  obtain ⟨hagrees, hpasses⟩ :=
    Reachable.summary_agrees_with_wire (reachable_asked [lingeringPage] 2) (i := 0) (by decide)
  refine ⟨?_, hagrees, _, ?_, ?_, ?_, ?_, rfl, ?_, ?_, ?_, ?_, hpasses _ _ _ _⟩
  . exact (Reachable.summary_agrees_with_wire (reachable_asked [] 0) (by decide)).1
  all_goals rfl

end Machine
end PageDispatch
