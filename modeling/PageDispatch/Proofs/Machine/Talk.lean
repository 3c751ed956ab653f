import PageDispatch.Proofs.Machine.Reopening

/-!
This module contains the operations of a machine that only talk: to foreign code, to channels and to
the journal. They leave the pages, the pool and the counters alone, and every word of them is known.
-/

namespace PageDispatch

/-- Whether an event is a word of foreign code or belongs to the way of a response. -/
def Event.isTalk : Event → Bool
  | note _ | sending _ _ _ | withheld _ _ _ | sendFailed _ _ | closed _ => true
  | _ => false

def Signal.event (outer : ChannelId) : Signal → Event
  | note value => .note value
  | close => .closed outer

namespace Call

def events {α : Type} (c : Call α) (outer : ChannelId) : List Event :=
  c.signals.map (Signal.event outer)

end Call

namespace Wire

/-- What is logged when a response is handed to a channel. -/
def events (wire : Wire) (id outer : ChannelId) (r : Response) : List Event :=
  match wire.refusal with
  | some message => [.sendFailed id message]
  | none =>
    let own := if id = outer then r else { r with body := r.body.detached }
    let closings := List.replicate (r.body.closings (wire.channel.calls own)) (.closed outer)
    match (wire.channel.send own).1 with
    | .ok () => closings
    | .error e => closings ++ [.sendFailed id e.message]

end Wire

namespace Machine

/-- What is logged when the response of a dispatch is due. -/
def sendingEvents (m : Machine) (i : Nat) (id outer : ChannelId) (r : Response) : List Event :=
  match m.wires[id]? with
  | none => [.withheld i id r]
  | some wire =>
    if wire.channel.isOpen then
      .sending i id r :: (wire.events id outer r ++ if r.closes then [.closed id] else [])
    else [.withheld i id r]

/-- Whether one machine comes of another one by talk that these events tell about. -/
structure Talks (m : Machine) (es : List Event) (m' : Machine) : Prop where
  settings : m'.settings = m.settings
  pages : m'.pages = m.pages
  decorators : m'.decorators = m.decorators
  patterns : m'.patterns = m.patterns
  pool : m'.pool = m.pool
  metrics : m'.metrics = m.metrics
  clock : m'.clock = m.clock
  dispatches : m'.dispatches = m.dispatches
  flights : ∀ f, m'.Holds f → m.Holds f
  journal : m'.journal = m.journal ++ es
  words : ∀ e ∈ es, e.isTalk = true

variable {m m' m'' : Machine} {es es' : List Event} {outer : ChannelId} {d : Dispatch}

theorem Talks.refl : m.Talks [] m where
  settings := rfl
  pages := rfl
  decorators := rfl
  patterns := rfl
  pool := rfl
  metrics := rfl
  clock := rfl
  dispatches := rfl
  flights _ hf := hf
  journal := (List.append_nil _).symm
  words := List.forall_mem_nil _

theorem Talks.trans (h : m.Talks es m') (h' : m'.Talks es' m'') : m.Talks (es ++ es') m'' where
  settings := h'.settings.trans h.settings
  pages := h'.pages.trans h.pages
  decorators := h'.decorators.trans h.decorators
  patterns := h'.patterns.trans h.patterns
  pool := h'.pool.trans h.pool
  metrics := h'.metrics.trans h.metrics
  clock := h'.clock.trans h.clock
  dispatches := h'.dispatches.trans h.dispatches
  flights f hf := h.flights f (h'.flights f hf)
  journal := by rw [h'.journal, h.journal, List.append_assoc]
  words := List.forall_mem_append.mpr ⟨h.words, h'.words⟩

theorem talks_log {e : Event} (he : e.isTalk = true) : m.Talks [e] (m.log e) :=
  { Talks.refl (m := m) with journal := rfl, words := List.forall_mem_singleton.mpr he }

theorem talks_close (id : ChannelId) : m.Talks [.closed id] (m.close id) :=
  { Talks.refl (m := m) with journal := rfl, words := List.forall_mem_singleton.mpr rfl }

theorem talks_setChannel (id : ChannelId) (channel : Channel) :
    m.Talks [] (m.setChannel id channel) :=
  { Talks.refl (m := m) with }

theorem talks_connect (wire : Wire) : m.Talks [] (m.connect wire).2 :=
  { Talks.refl (m := m) with }

theorem talks_signal (s : Signal) : m.Talks [s.event outer] (m.signal outer s) := by
  cases s with
  | note value => exact talks_log rfl
  | close => exact talks_close outer

theorem talks_call {α : Type} (c : Call α) : m.Talks (c.events outer) (m.call outer c).1 := by
  unfold call Call.events
  dsimp only
  induction c.signals generalizing m with
  | nil => exact .refl
  | cons s rest ih => exact (talks_signal s).trans ih

theorem talks_guarded (c : Call Response) : m.Talks (c.events outer) (m.guarded outer c).1 := by
  rw [guarded_fst]
  exact talks_call c

theorem talks_closings (n : Nat) :
    m.Talks (List.replicate n (.closed outer)) (n.repeat (fun m => m.close outer) m) := by
  induction n with
  | zero => exact .refl
  | succ n ih =>
    rw [List.replicate_succ']
    exact ih.trans (talks_close outer)

theorem talks_transmit (id : ChannelId) (wire : Wire) (r : Response) :
    m.Talks (wire.events id outer r) (m.transmit id outer wire r) := by
  unfold transmit Wire.events
  cases wire.refusal with
  | some message => exact talks_log rfl
  | none =>
    dsimp only
    generalize (if id = outer then r else { r with body := r.body.detached }) = own
    generalize r.body.closings (wire.channel.calls own) = n
    obtain ⟨result, channel⟩ := wire.channel.send own
    have hclosed : m.Talks (List.replicate n (.closed outer))
        (n.repeat (fun m => m.close outer) (m.setChannel id channel)) :=
      (talks_setChannel id channel).trans (talks_closings n)
    cases result with
    | ok _ => exact hclosed
    | error e => exact hclosed.trans (talks_log rfl)

theorem talks_sendNow (i : Nat) (id : ChannelId) (r : Response) :
    m.Talks (m.sendingEvents i id outer r) (m.sendNow i id outer r) := by
  unfold sendNow sendingEvents
  cases m.wires[id]? with
  | none => exact talks_log rfl
  | some wire =>
    dsimp only
    split
    . have hsent : m.Talks (.sending i id r :: wire.events id outer r)
          ((m.log (.sending i id r)).transmit id outer wire r) :=
        (talks_log rfl).trans (talks_transmit id wire r)
      split
      . exact hsent.trans (talks_close id)
      . rw [List.append_nil]
        exact hsent
    . exact talks_log rfl

theorem talks_schedule {i : Nat} {channel : ChannelId} {r : Response} (after : Nat) :
    m.Talks [] (m.schedule after (.deliver i channel outer r)) := by
  refine { Talks.refl (m := m) with flights := ?_ }
  intro f hf
  cases holds_of_schedule hf with
  | inl hold => exact hold
  | inr hnew =>
    obtain ⟨_, _, _, _, halarm, -⟩ := hnew
    cases halarm

theorem deliver_of_not_delayed {r : Response} (hr : r.isDelayed = false) :
    m.deliver d r = m.sendNow d.id d.channel d.outer r := by
  unfold deliver
  rw [Option.isSome_eq_false_iff.mp hr |> Option.isNone_iff_eq_none.mp]

theorem exists_talks_deliver (r : Response) : ∃ es, m.Talks es (m.deliver d r) := by
  unfold deliver
  split
  . exact ⟨_, talks_sendNow _ _ _⟩
  . exact ⟨_, talks_schedule _⟩

end Machine
end PageDispatch
