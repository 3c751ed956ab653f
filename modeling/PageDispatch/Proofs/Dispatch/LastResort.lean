import PageDispatch.Proofs.Dispatch.Completion
import PageDispatch.Proofs.Dispatch.Moves
import PageDispatch.Proofs.Dispatch.Silence
import PageDispatch.Proofs.Response.Closing
import PageDispatch.Proofs.Run.History

/-!
This module contains the verification that every dispatch that is not given up gets the response it
is due, if need be from the fallback and if that panics the last resort, and that the connection is
closed just if the response says so.
-/

namespace PageDispatch

/-- The response that foreign code gives, amended, or the last resort if it panics. -/
def Call.amended (c : Call Response) (amend : Response → Response) : Response :=
  match c.result with
  | .ok r => amend r
  | .error _ => .minimalError

namespace Call

theorem closing_orMinimal (c : Call Response) :
    c.orMinimal.closing = c.amended Response.closing := by
  unfold orMinimal amended
  cases c.result with
  | ok r => rfl
  | error payload => exact Response.closing_minimalError

variable (c : Call Response)

theorem getAll_amended_closing :
    (c.amended Response.closing).headers.getAll .connection = [Response.close] := by
  rw [← closing_orMinimal]
  exact Response.getAll_closing _

theorem closes_amended_closing : (c.amended Response.closing).closes = true := by
  rw [← closing_orMinimal]
  rfl

end Call

/--
Which response a dispatch is due, by how it ends and by what the hook was told about it: what units
of its current page wrote, unless there is no page left, or the request is refused, or the hook
panicked.
-/
inductive Dispatch.Resorts (settings : Settings) (d : Dispatch) :
    List FailureReport → Disposition → Response → Prop
  | page (hpage : d.current ≠ none) (written : Accumulator) :
    Resorts settings d [] .answered written.toResponse
  | failure (hpage : d.current ≠ none) (written : Accumulator) {report : FailureReport}
    (h : (settings.hook report).result = .ok ()) :
    Resorts settings d [report] .failed written.toResponse
  | fatal (hpage : d.current ≠ none) {report : FailureReport} {payload : PanicPayload}
    (h : (settings.hook report).result = .error payload) :
    Resorts settings d [report] .failed
      ((settings.fallback.onError d.context.request ⟨report.failure, payload.message⟩).amended
        Response.closing)
  | notFound (hpage : d.current = none) (htried : d.pages.length ≤ d.tried) :
    Resorts settings d [] .notFound (settings.fallback.notFound d.context.request).orMinimal
  | shed (hpage : d.current = none) :
    Resorts settings d [] .shed (settings.fallback.overloaded d.context.request).orMinimal

/--
What is logged of a response that is due at once: that it is withheld, if its channel has been
closed, or that it is handed to an open channel, which may fail. In either case of the latter, the
channel is closed then if the response closes it.
-/
inductive Dispatch.Sends (d : Dispatch) (before : List Event) (r : Response) : List Event → Prop
  | withheld (h : .closed d.channel ∈ before) : Sends d before r [.withheld d.id d.channel r]
  | sent {wire : Wire} (hopen : wire.channel.isOpen = true) :
    Sends d before r
      (.sending d.id d.channel r
        :: (wire.events d.channel d.outer r ++ if r.closes then [.closed d.channel] else []))

namespace Strand.Tells

variable {s : Strand} {closed : Prop} {i : Nat} {channel : ChannelId} {request : Request}

/-- What is neither the arrival of a dispatch nor done in its runs is at the end of its events. -/
theorem mem_last {e : Event} {es last : List Event}
    (hmem : e ∈ .received i channel request :: (es ++ last)) (hes : ∀ e ∈ es, e.isInner = true)
    (he : e.isInner = false) (harrival : e ≠ .received i channel request) : e ∈ last := by
  cases List.mem_cons.mp hmem with
  | inl hfirst => exact absurd hfirst harrival
  | inr hrest =>
    refine (List.mem_append.mp hrest).resolve_left ?_
    intro hinner
    rw [hes e hinner] at he
    cases he

/-- A dispatch whose response was withheld is one whose channel is closed. -/
theorem closed_of_withheld {id : ChannelId} {r : Response} (h : s.Tells closed i channel request)
    (hmem : .withheld i id r ∈ s.events) : closed := by
  cases h with
  | @busy f d es howner hid hch hes =>
    rw [← List.append_nil es] at hmem
    cases mem_last hmem hes rfl nofun
  | abandoned hes hd hs hc => cases List.mem_singleton.mp (mem_last hmem hes rfl nofun)
  | pending hes hd hs => cases List.mem_singleton.mp (mem_last hmem hes rfl nofun)
  | answered hes hd hs hclosing =>
    have hlast := mem_last hmem hes rfl nofun
    cases hclosing with
    | sent => simp at hlast
    | withheld hc => exact hc
    | sentLater => simp at hlast
    | withheldLater hc => exact hc

theorem eq_of_finished_mem {r : Response} {e : Event} {last : List Event} {nested : Bool}
    {summary : DispatchSummary} (h : Closing closed i channel r e last)
    (hmem : .finished i nested summary ∈ last) : .finished i nested summary = e := by
  cases h <;> simpa using hmem

/-- A dispatch that was given up is one whose channel is closed, or one of whose jobs panicked. -/
theorem closed_of_abandoned {nested : Bool} {summary : DispatchSummary}
    (h : s.Tells closed i channel request) (hmem : .finished i nested summary ∈ s.events)
    (hsummary : summary.disposition = .abandoned) : closed ∨ .escaped (some i) ∈ s.events := by
  cases h with
  | @busy f d es howner hid hch hes =>
    rw [← List.append_nil es] at hmem
    cases mem_last hmem hes rfl nofun
  | abandoned hes hd hs hc =>
    exact hc.imp_right fun hescaped => List.mem_cons_of_mem _ (List.mem_append_left _ hescaped)
  | pending hes hd hs =>
    cases List.mem_singleton.mp (mem_last hmem hes rfl nofun)
    exact absurd hsummary hd
  | answered hes hd hs hclosing =>
    cases eq_of_finished_mem hclosing (mem_last hmem hes rfl nofun)
    exact absurd hsummary hd

end Strand.Tells

namespace Machine

variable {settings : Settings} {m m' : Machine} {d : Dispatch} {disposition : Disposition}
  {r : Response} {i : Nat} {nested : Bool} {summary : DispatchSummary}

/-- Whether every dispatch that has ended has done so in a way that is known. -/
def AllEnded (m : Machine) : Prop :=
  ∀ i nested summary, .finished i nested summary ∈ m.journal → m.Ended i nested summary

theorem AllEnded.of_extends (h : m.AllEnded) (he : m.Extends m') (hj : m'.journal = m.journal) :
    m'.AllEnded := by
  intro i nested summary hmem
  rw [hj] at hmem
  exact (h i nested summary hmem).of_extends he

theorem Moves.allEnded (h : Moves m m') (hm : m.AllEnded) : m'.AllEnded := by
  induction h with
  | refl => exact hm
  | tail _ hlast ih =>
    intro i nested summary hmem
    cases hlast.finished_mem hmem with
    | inl hold => exact (ih i nested summary hold).of_extends hlast.extends
    | inr hnew => exact hnew.1

theorem Stirred.allEnded (h : Stirred settings m) : m.AllEnded := by
  induction h with
  | new pages decorators => exact fun _ _ _ hmem => nomatch hmem
  | next hbefore hnext ih =>
    obtain ⟨job, started, done, panicked, hstart, hmoves, rfl⟩ | ⟨next, hshifts, hmoves⟩ :=
      hnext.moves hbefore.sane hbefore.attentive
    . have hextends := extends_startJob? hstart
      obtain ⟨rest, -, rfl⟩ := startJob?_eq_some hstart
      have hdone := Moves.allEnded hmoves (ih.of_extends hextends rfl)
      exact hdone.of_extends (extends_endJob panicked) rfl
    . exact Moves.allEnded hmoves (ih.of_extends hshifts.extends hshifts.journal)

section Reports

/-- The hook is told about dispatches that fail only, and once about each of them. -/
theorem Stirred.told (h : Stirred settings m) (hmem : .finished i nested summary ∈ m.journal) :
    (summary.disposition = .failed ∧ ∃ report, m.reports i = [report]) ∨
    (summary.disposition ≠ .failed ∧ m.reports i = []) := by
  obtain ⟨channel, request, pages, -, hr⟩ := h.attends (h.sane.fresh.lt_of_mem_journal hmem rfl)
  have hlast : summary.disposition ∈ (m.strand i).dispositions :=
    List.mem_filterMap.mpr ⟨_, mem_strand_of_mem_journal hmem rfl, rfl⟩
  obtain ⟨hfailed, honce⟩ | ⟨hnot, hnone⟩ := reports_eq ▸ hr.once_if_failed
  . rw [hfailed] at hlast
    exact .inl ⟨List.mem_singleton.mp hlast, honce⟩
  . exact .inr ⟨fun hfailed => hnot (hfailed ▸ hlast), hnone⟩

/-- What a dispatch earns is due by what the hook was told about it in all. -/
theorem Stirred.resorts (h : Stirred settings m) {before : List Event}
    (hmem : .finished i nested summary ∈ m.journal) (hid : d.id = i) (hbefore : before ⊆ m.journal)
    (hearns : d.Earns settings before summary.disposition r) :
    d.Resorts settings (m.reports i) summary.disposition r := by
  have htold := h.told hmem
  have honly : ∀ report, .reporting (some d.id) report ∈ before →
      ∀ other, m.reports i = [other] → other = report := by
    intro report hreport other hother
    rw [hid] at hreport
    have hstory := mem_story_of_reporting (hbefore hreport)
    have hmine : report ∈ m.reports i := by
      rw [reports_eq]
      exact List.mem_filterMap.mpr ⟨_, hstory, rfl⟩
    rw [hother] at hmine
    exact (List.mem_singleton.mp hmine).symm
  generalize summary.disposition = disposition at hearns htold
  obtain ⟨rfl, report, hreports⟩ | ⟨hne, hreports⟩ := htold
  . -- the report that the answer stands for is the only one
    rw [hreports]
    cases hearns with
    | failure hpage written hreport h =>
      cases honly _ hreport _ hreports
      exact .failure hpage written h
    | fatal hpage hreport h =>
      cases honly _ hreport _ hreports
      rw [Call.closing_orMinimal]
      exact .fatal hpage h
  . rw [hreports]
    cases hearns with
    | page hpage written => exact .page hpage written
    | failure hpage written hreport h => exact absurd rfl hne
    | fatal hpage hreport h => exact absurd rfl hne
    | notFound hpage htried => exact .notFound hpage htried
    | shed hpage => exact .shed hpage

end Reports

section Channels

variable {before es after : List Event}

/-- What is logged of a response that is due at once is one of the ways of a response. -/
theorem sends_sendingEvents
    (hclosed : m.sendingEvents d.id d.channel d.outer r = [.withheld d.id d.channel r] →
      .closed d.channel ∈ before) :
    d.Sends before r (m.sendingEvents d.id d.channel d.outer r) := by
  unfold sendingEvents at hclosed ⊢
  cases hw : m.wires[d.channel]? with
  | none =>
    rw [hw] at hclosed
    exact .withheld (hclosed rfl)
  | some wire =>
    rw [hw] at hclosed
    dsimp only at hclosed ⊢
    cases hopen : wire.channel.isOpen with
    | true => exact .sent hopen
    | false =>
      rw [hopen] at hclosed
      exact .withheld (hclosed rfl)

/-- A channel that is closed once a request for it has arrived stays closed. -/
theorem Reachable.isOpen_eq_false (h : Reachable settings m) {channel : ChannelId}
    {request : Request} (hreceived : .received i channel request ∈ before)
    (hj : m.journal = before ++ .closed channel :: after) : m.isOpen channel = false := by
  have hmem : .received i channel request ∈ m.journal := by
    rw [hj]
    exact List.mem_append_left _ hreceived
  obtain ⟨request, ht⟩ := h.exists_tells_of_received hmem
  obtain ⟨pages, decorators, hreach⟩ := h
  have hnew : Reachable settings (new settings pages decorators) := ⟨pages, decorators, .refl⟩
  have hdeeds := Reaches.deeds hreach hnew ht.lines
  obtain ⟨c, hbefore, rfl, hafter⟩ := hdeeds.exists_closing hj List.nil_prefix
  have hlt : channel < c.wires.length := hbefore.received_lt nofun hreceived
  apply hafter.grows.closed channel
  . rw [length_wires_close]
    exact hlt
  . rw [isOpen_close, if_pos rfl]

theorem Reachable.isOpen_of_sends (h : Reachable settings m) (hid : d.id = i)
    (hreceived : .received i d.channel d.context.request ∈ before)
    (hj : m.journal = before ++ (es ++ after)) (hsends : d.Sends before r es)
    (hcloses : r.closes = true) : m.isOpen d.channel = false := by
  cases hsends with
  | withheld hclosed =>
    have harrived : .received i d.channel d.context.request ∈ m.journal := by
      rw [hj]
      exact List.mem_append_left _ hreceived
    obtain ⟨request, ht⟩ := h.exists_tells_of_received harrived
    have hmem : .withheld i d.channel r ∈ m.journal := by
      rw [hj, hid]
      exact List.mem_append_right _ List.mem_cons_self
    exact ht.closed_of_withheld (mem_strand_of_mem_journal hmem rfl)
  | @sent wire hopen =>
    rw [if_pos hcloses] at hj
    have hclosing : m.journal
        = (before ++ .sending d.id d.channel r :: wire.events d.channel d.outer r)
          ++ .closed d.channel :: after := by
      rw [hj]
      simp
    exact h.isOpen_eq_false (List.mem_append_left _ hreceived) hclosing

end Channels

/-- What is known of a dispatch that was given up. -/
structure GivenUp (m : Machine) (settings : Settings) (i : Nat) (summary : DispatchSummary) :
    Prop where
  disposition : summary.disposition = .abandoned
  unreported : m.reports i = []
  reason : Reachable settings m → ∃ channel request, .received i channel request ∈ m.journal ∧
    (m.isOpen channel = false ∨ .escaped (some i) ∈ m.journal)

/--
What is known of a dispatch that has been answered: which response it was due, that it got this one,
and what became of the connection.
-/
structure Answered (m : Machine) (settings : Settings) (d : Dispatch) (summary : DispatchSummary)
    (r : Response) (before es after : List Event) : Prop where
  journal : m.journal = before ++ (es ++ .finished d.id d.nested summary :: after)
  received : .received d.id d.channel d.context.request ∈ before
  ending : ∃ now, summary = d.summary now summary.disposition (some r.status)
  due : d.Resorts settings (m.reports d.id) summary.disposition r
  sends : r.isDelayed = false → d.Sends before r es
  /-- A failure that could not be reported closes the connection. -/
  fatal : ∀ report payload, m.reports d.id = [report] →
    (settings.hook report).result = .error payload →
      r.headers.getAll .connection = [Response.close] ∧
      (r.isDelayed = false → .closed d.channel ∈ before ++ es ∧
        (Reachable settings m → m.isOpen d.channel = false))
  /-- What units wrote closes the connection if it says so. -/
  page : ∀ written : Accumulator, r = written.toResponse →
    (r.closes = true ↔
      ∃ v, (r.headers.getAll .connection).getLast? = some v ∧ v.SaysClose)

/-- If the hook panicked on its only report, the response is one that closes the connection. -/
theorem exists_eq_amended_closing {report : FailureReport} {payload : PanicPayload}
    (h : d.Resorts settings [report] disposition r)
    (hpanicked : (settings.hook report).result = .error payload) :
    ∃ c : Call Response, r = c.amended Response.closing := by
  cases h with
  | failure hpage written htold =>
    rw [hpanicked] at htold
    cases htold
  | fatal hpage htold => exact ⟨_, rfl⟩

theorem closed_mem_of_sends {before es : List Event} (h : d.Sends before r es)
    (hcloses : r.closes = true) : .closed d.channel ∈ before ++ es := by
  cases h with
  | withheld hclosed => exact List.mem_append_left _ hclosed
  | sent hopen => simp [hcloses]

theorem Stirred.answered (h : Stirred settings m) {mid : Machine} (hheard : mid.Heard d)
    (hmem : .finished d.id d.nested summary ∈ m.journal)
    (hearns : d.Earns mid.settings mid.journal disposition r)
    (hsummary : summary = d.summary mid.clock disposition (some r.status))
    (he : (mid.finishWith d disposition r).Extends m) :
    ∃ es after, m.Answered settings d summary r mid.journal es after := by
  obtain ⟨es, hdeliver⟩ := exists_talks_deliver (m := mid) (d := d) r
  have hsettings : mid.settings = settings := by
    rw [← h.settings_eq, he.settings]
    exact extends_finishWith.settings.symm
  obtain ⟨after, hj⟩ := he.journal
  have hfinish : (mid.finishWith d disposition r).journal
      = mid.journal ++ es ++ [.finished d.id d.nested summary] := by
    rw [hsummary, ← hdeliver.clock, ← hdeliver.journal]
    rfl
  have hjournal : m.journal = mid.journal ++ (es ++ .finished d.id d.nested summary :: after) := by
    rw [← hj, hfinish]
    simp
  have hdue : d.Resorts settings (m.reports d.id) summary.disposition r := by
    refine h.resorts hmem rfl (hjournal ▸ List.subset_append_left _ _) ?_
    rw [hsummary, ← hsettings]
    exact hearns
  have hsends : r.isDelayed = false → d.Sends mid.journal r es := by
    intro hr
    rw [deliver_of_not_delayed hr] at hdeliver
    have htalks := @talks_sendNow mid d.outer d.id d.channel r
    have hes : es = mid.sendingEvents d.id d.channel d.outer r :=
      List.append_cancel_left (hdeliver.journal.symm.trans htalks.journal)
    rw [hes]
    apply sends_sendingEvents
    intro hwithheld
    -- a response is withheld from a channel that the request came for only if it was closed since
    rw [← hes] at hwithheld
    rw [hwithheld] at hjournal
    exact h.sane.honest.withheld _ _ _ _ _ hjournal ⟨d.context.request, hheard⟩
  refine ⟨es, after, hjournal, hheard, ⟨mid.clock, hsummary ▸ rfl⟩, hdue, hsends, ?_, ?_⟩
  . intro report payload hreports hpanicked
    rw [hreports] at hdue
    obtain ⟨c, hc⟩ := exists_eq_amended_closing hdue hpanicked
    have hcloses : r.closes = true := hc ▸ c.closes_amended_closing
    refine ⟨hc ▸ c.getAll_amended_closing, ?_⟩
    intro hr
    exact ⟨closed_mem_of_sends (hsends hr) hcloses,
      fun hreach => hreach.isOpen_of_sends rfl hheard hjournal (hsends hr) hcloses⟩
  . intro written hr
    rw [hr]
    exact written.closesConnection_iff

theorem Stirred.exists_finished (h : Stirred settings m) (hi : i < m.dispatches)
    (hflown : m.queued i + m.parked i = 0) :
    ∃ nested summary, .finished i nested summary ∈ m.journal := by
  have honce : m.finishes i = 1 := by
    have := h.account_eq hi
    rw [account_strand] at this
    omega
  obtain ⟨e, hmem, he⟩ := List.countP_pos_iff.mp (Nat.lt_of_lt_of_eq Nat.zero_lt_one honce.symm)
  cases e with
  | finished j nested summary =>
    cases of_decide_eq_true he
    exact ⟨nested, summary, hmem⟩
  | _ => cases he

theorem Stirred.givenUp (h : Stirred settings m) (hmem : .finished i nested summary ∈ m.journal)
    (hd : summary.disposition = .abandoned) : m.GivenUp settings i summary := by
  refine ⟨hd, ?_, ?_⟩
  . obtain ⟨hfailed, -⟩ | ⟨-, hnone⟩ := h.told hmem
    . rw [hd] at hfailed
      cases hfailed
    . exact hnone
  . intro hreach
    obtain ⟨channel, request, ht⟩ := hreach.exists_tells (h.sane.fresh.lt_of_mem_journal hmem rfl)
    have hreason := ht.closed_of_abandoned (mem_strand_of_mem_journal hmem rfl) hd
    exact ⟨channel, request, mem_journal_of_mem_strand ht.received_mem,
      hreason.imp_right mem_journal_of_mem_strand⟩

/--
Every dispatch that was started is on its way, or was given up, or got the response it was due.
Where the fallback is needed this is exactly what it gives, or the last resort if it panics, and the
disposition is the same; where the hook panicked, the connection is closed, whether or not the
response could be sent.
-/
theorem Stirred.answered_as_due (h : Stirred settings m) (hi : i < m.dispatches) :
    m.queued i + m.parked i = 1 ∨
    (∃ nested summary, .finished i nested summary ∈ m.journal ∧ m.GivenUp settings i summary) ∨
    ∃ d summary r before es after, d.id = i ∧ m.Answered settings d summary r before es after := by
  have hone := h.account_eq hi
  rw [account_strand] at hone
  cases Nat.eq_zero_or_pos (m.queued i + m.parked i) with
  | inr hflown =>
    left
    omega
  | inl hlanded =>
    right
    obtain ⟨nested, summary, hmem⟩ := h.exists_finished hi hlanded
    cases h.allEnded i nested summary hmem with
    | abandoned hd => exact .inl ⟨nested, summary, hmem, h.givenUp hmem hd⟩
    | @answered mid d disposition r hid hnested hheard hearns hsummary he =>
      subst hid hnested
      obtain ⟨es, after, hanswered⟩ := h.answered hheard hmem hearns hsummary he
      exact .inr ⟨d, summary, r, mid.journal, es, after, rfl, hanswered⟩

/-- A hook that panics, and a fallback that would rather keep the connection. -/
def helpless : Settings :=
  { Settings.plain with
    hook := fun _ => .panic .other
    fallback := { Settings.plain.fallback with
      onError := fun _ _ => .pure ((Response.new .internalServerError).withHeader .connection
        ⟨Utf8.encode "keep-alive", by decide +kernel⟩) } }

/-- A dispatch that fails on a channel that refuses to send. -/
def unheard : Machine :=
  (((new helpless [brittlePage] []).connect ⟨.new, some "lost"⟩).2.dispatch (.new .zero .get "/")
    0 0 false).settle 8

theorem reachable_unheard : Reachable helpless unheard := by
  have hconnected :
      Reachable helpless ((new helpless [brittlePage] []).connect ⟨.new, some "lost"⟩).2 :=
    ⟨[brittlePage], [], .single (.connect _ rfl)⟩
  exact hconnected.reaches
    ((Relation.ReflTransGen.single (.dispatch _ Nat.zero_lt_one)).trans (reaches_settle _ 8))

theorem answer_of_unheard :
    Stirred helpless unheard ∧ 0 < unheard.dispatches ∧
    ∃ d summary r before es after, unheard.Answered helpless d summary r before es after ∧
      summary.disposition = .failed ∧ r.headers.getAll .connection = [Response.close] ∧
      .closed d.channel ∈ before ++ es ∧ unheard.isOpen d.channel = false := by
  have hreach := reachable_unheard
  obtain ⟨report, hreports⟩ : ∃ report, unheard.reports 0 = [report] := ⟨_, rfl⟩
  refine ⟨hreach.stirred, by decide, ?_⟩
  obtain hflown | ⟨_, _, _, hgiven⟩ | ⟨d, summary, r, before, es, after, hid, hanswered⟩ :=
    Stirred.answered_as_due hreach.stirred (i := 0) (by decide)
  . cases hflown
  . rw [hgiven.unreported] at hreports
    cases hreports
  . refine ⟨d, summary, r, before, es, after, hanswered, ?_⟩
    rw [← hid] at hreports
    obtain ⟨hconnection, hclosed⟩ := hanswered.fatal report .other hreports rfl
    obtain ⟨hdisposition, hdelay⟩ : summary.disposition = .failed ∧ r.isDelayed = false := by
      have hdue := hanswered.due
      rw [hreports] at hdue
      generalize summary.disposition = disposition at hdue ⊢
      cases hdue with
      | failure hpage written htold => cases htold
      | fatal hpage htold => exact ⟨rfl, rfl⟩
    exact ⟨hdisposition, hconnection, (hclosed hdelay).1, (hclosed hdelay).2 hreach⟩

end Machine
end PageDispatch
