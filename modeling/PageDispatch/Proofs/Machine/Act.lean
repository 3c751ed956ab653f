import PageDispatch.Engine.Schedule
import PageDispatch.Proofs.Chain.Patterns

/-!
This module contains the single acts that the operations of a machine are made of. Every operation
is a sequence of acts, on behalf of certain dispatches only; what holds of every act holds of every
operation.
-/

namespace PageDispatch

namespace Event

def dispatch? : Event → Option Nat
  | received i _ _ | sending i _ _ | withheld i _ _ | building i _ | rejected i _
  | finished i _ _ => some i
  | instantiating owner _ | evaluating owner _ _ _ | reporting owner _ | escaped owner => owner
  | note _ | sendFailed _ _ | closed _ | completed _ => none

end Event

namespace Machine

def record (m : Machine) (id : ChannelId) (sent : List SentResponse) : Machine :=
  { m with
    wires := m.wires.modify id fun wire => { wire with channel := { wire.channel with sent } } }

/-- What has to hold when an event is logged; that a channel closes is no such event. -/
def Bears (m : Machine) : Event → Prop
  | .closed _ => False
  | .received _ channel _ => channel < m.wires.length
  | .withheld _ channel _ => m.isOpen channel = false
  | _ => True

/-- Whether something belongs to no dispatch, or to one that was started and is among `who`. -/
def Allows (m : Machine) (who : Nat → Prop) (owner : Option Nat) : Prop :=
  ∀ i, owner = some i → who i ∧ i < m.dispatches

structure SameWork (m m' : Machine) : Prop where
  settings : m'.settings = m.settings
  decorators : m.decorators <+: m'.decorators
  patterns : m.patterns.Sound → m'.patterns.Sound
  waiting : m'.pool.waiting = m.pool.waiting
  wires : m'.wires = m.wires
  timers : m'.timers = m.timers
  dispatches : m'.dispatches = m.dispatches
  journal : m'.journal = m.journal

inductive Act (who : Nat → Prop) (m : Machine) : Machine → Prop
  | log {e : Event} (hb : m.Bears e) (ho : m.Allows who e.dispatch?) : Act who m (m.log e)
  | close (id : ChannelId) : Act who m (m.close id)
  | record (id : ChannelId) (sent : List SentResponse) : Act who m (m.record id sent)
  | start {d : Dispatch} (chain : HandlerChain) (ho : m.Allows who (some d.id))
    (hc : d.channel < m.wires.length) : Act who m (m.submit (.step (d.start chain)))
  | postpone {i : Nat} (after : Nat) (channel outer : ChannelId) (r : Response)
    (ho : m.Allows who (some i)) : Act who m (m.schedule after (.deliver i channel outer r))
  | connect (wire : Wire) (hw : wire.channel.isOpen = true) : Act who m (m.connect wire).2
  | count (hw : who m.dispatches) : Act who m { m with dispatches := m.dispatches + 1 }
  | tune {m' : Machine} (h : m.SameWork m') : Act who m m'

/-- A sequence of acts on behalf of the dispatches in `who`, those started on the way included. -/
inductive Acts (who : Nat → Prop) (m : Machine) : Machine → Prop
  | refl : Acts who m m
  | tail {m' m'' : Machine} (h : Acts who m m') (hlast : Act who m' m'') : Acts who m m''

section Channels

variable {m : Machine} {channel id : ChannelId}

theorem isOpen_eq_of_wires_eq {m' : Machine} (h : m'.wires = m.wires) :
    m'.isOpen channel = m.isOpen channel := by
  simp only [isOpen, h]

theorem isOpen_close :
    (m.close id).isOpen channel = if id = channel then false else m.isOpen channel := by
  simp only [isOpen, close, shut, log, List.getElem?_modify]
  cases m.wires[channel]? with
  | none => simp
  | some wire =>
    cases Nat.decEq id channel with
    | isTrue h => simp [h, Channel.close]
    | isFalse h => simp [h]

@[simp]
theorem isOpen_record (sent : List SentResponse) :
    (m.record id sent).isOpen channel = m.isOpen channel := by
  simp only [isOpen, record, List.getElem?_modify]
  cases m.wires[channel]? with
  | none => rfl
  | some wire =>
    simp only [Option.map_eq_map, Option.map_some]
    split <;> rfl

theorem isOpen_connect_of_lt {wire : Wire} (h : channel < m.wires.length) :
    (m.connect wire).2.isOpen channel = m.isOpen channel := by
  simp only [isOpen, connect]
  rw [List.getElem?_append_left h]

theorem isOpen_connect_length {wire : Wire} :
    (m.connect wire).2.isOpen m.wires.length = wire.channel.isOpen := by
  simp [isOpen, connect]

@[simp]
theorem length_wires_close : (m.close id).wires.length = m.wires.length := by
  simp [close, shut, log]

@[simp]
theorem length_wires_record (sent : List SentResponse) :
    (m.record id sent).wires.length = m.wires.length := by
  simp [record]

@[simp]
theorem length_wires_connect {wire : Wire} :
    (m.connect wire).2.wires.length = m.wires.length + 1 := by
  simp [connect]

end Channels

/-- What no operation takes back. -/
structure Grows (m m' : Machine) : Prop where
  settings : m'.settings = m.settings
  decorators : m.decorators <+: m'.decorators
  patterns : m.patterns.Sound → m'.patterns.Sound
  wires : m.wires.length ≤ m'.wires.length
  closed : ∀ channel, channel < m.wires.length →
    m.isOpen channel = false → m'.isOpen channel = false
  dispatches : m.dispatches ≤ m'.dispatches
  journal : m.journal <+: m'.journal

variable {m m' m'' : Machine} {who : Nat → Prop}

theorem Grows.refl : m.Grows m :=
  ⟨rfl, List.prefix_refl _, id, Nat.le_refl _, fun _ _ h => h, Nat.le_refl _, List.prefix_refl _⟩

theorem Grows.trans (h : m.Grows m') (h' : m'.Grows m'') : m.Grows m'' where
  settings := h'.settings.trans h.settings
  decorators := h.decorators.trans h'.decorators
  patterns := h'.patterns ∘ h.patterns
  wires := Nat.le_trans h.wires h'.wires
  closed channel hlt hc :=
    h'.closed channel (Nat.lt_of_lt_of_le hlt h.wires) (h.closed channel hlt hc)
  dispatches := Nat.le_trans h.dispatches h'.dispatches
  journal := h.journal.trans h'.journal

theorem SameWork.grows (h : m.SameWork m') : m.Grows m' where
  settings := h.settings
  decorators := h.decorators
  patterns := h.patterns
  wires := Nat.le_of_eq (congrArg List.length h.wires.symm)
  closed channel _ hc := by rw [isOpen_eq_of_wires_eq h.wires, hc]
  dispatches := Nat.le_of_eq h.dispatches.symm
  journal := h.journal ▸ List.prefix_refl _

theorem Act.grows (h : Act who m m') : m.Grows m' := by
  cases h with
  | log hb ho => exact { Grows.refl (m := m) with journal := List.prefix_append _ _ }
  | close id =>
    refine { Grows.refl (m := m) with wires := ?_, closed := ?_, journal := List.prefix_append _ _ }
    . exact Nat.le_of_eq length_wires_close.symm
    . intro channel _ hc
      rw [isOpen_close, hc, ite_self]
  | record id sent =>
    refine { Grows.refl (m := m) with wires := ?_, closed := ?_ }
    . exact Nat.le_of_eq (length_wires_record sent).symm
    . intro channel _ hc
      rw [isOpen_record, hc]
  | start chain ho hc => exact { Grows.refl (m := m) with }
  | postpone after channel outer r ho => exact { Grows.refl (m := m) with }
  | connect wire hw =>
    refine { Grows.refl (m := m) with wires := ?_, closed := ?_ }
    . rw [length_wires_connect]
      exact Nat.le_succ _
    . intro channel hlt hc
      rw [isOpen_connect_of_lt hlt, hc]
  | count hw => exact { Grows.refl (m := m) with dispatches := Nat.le_succ _ }
  | tune h => exact h.grows

theorem Acts.single (h : Act who m m') : Acts who m m' := .tail .refl h

theorem Acts.trans (h : Acts who m m') (h' : Acts who m' m'') : Acts who m m'' := by
  induction h' with
  | refl => exact h
  | tail _ hlast ih => exact .tail ih hlast

theorem Acts.grows (h : Acts who m m') : m.Grows m' := by
  induction h with
  | refl => exact .refl
  | tail _ h ih => exact ih.trans h.grows

theorem Allows.none : m.Allows who none := by
  intro i hi
  cases hi

theorem Allows.of_grows {owner : Option Nat} (h : m.Allows who owner) (hg : m.Grows m') :
    m'.Allows who owner := by
  intro i hi
  have ⟨hw, hlt⟩ := h i hi
  exact ⟨hw, Nat.lt_of_lt_of_le hlt hg.dispatches⟩

theorem SameWork.acts (h : m.SameWork m') : Acts who m m' := .single (.tune h)

/-- What the journal tells about the channels. -/
structure Honest (m : Machine) : Prop where
  closed : ∀ channel, channel < m.wires.length → m.isOpen channel = false →
    .closed channel ∈ m.journal
  received : ∀ i channel request, .received i channel request ∈ m.journal →
    channel < m.wires.length
  withheld : ∀ before after i channel r, m.journal = before ++ .withheld i channel r :: after →
    (∃ request, .received i channel request ∈ before) → .closed channel ∈ before

theorem append_singleton_eq_append_cons {α : Type} {l before after : List α} {x y : α}
    (h : l ++ [x] = before ++ y :: after) :
    (after = [] ∧ l = before ∧ x = y) ∨ ∃ rest, after = rest ++ [x] ∧ l = before ++ y :: rest := by
  cases List.eq_nil_or_concat after with
  | inl hnil =>
    subst hnil
    have ⟨hl, hx⟩ := List.append_inj' h rfl
    exact .inl ⟨rfl, hl, List.singleton_inj.mp hx⟩
  | inr hconcat =>
    obtain ⟨rest, last, rfl⟩ := hconcat
    rw [List.concat_eq_append, ← List.cons_append, ← List.append_assoc] at h
    have ⟨hl, hx⟩ := List.append_inj' h rfl
    refine .inr ⟨rest, ?_, hl⟩
    rw [List.singleton_inj.mp hx, List.concat_eq_append]

theorem Honest.of_journal_eq (h : m.Honest) (hj : m'.journal = m.journal)
    (hw : m.wires.length ≤ m'.wires.length)
    (hc : ∀ channel, channel < m'.wires.length → m'.isOpen channel = false →
      channel < m.wires.length ∧ m.isOpen channel = false) : m'.Honest where
  closed channel hlt hclosed := by
    have ⟨hlt', hclosed'⟩ := hc channel hlt hclosed
    rw [hj]
    exact h.closed channel hlt' hclosed'
  received i channel request hmem := by
    rw [hj] at hmem
    exact Nat.lt_of_lt_of_le (h.received i channel request hmem) hw
  withheld before after i channel r heq := by
    rw [hj] at heq
    exact h.withheld before after i channel r heq

theorem Honest.log {e : Event} (h : m.Honest) (hb : m.Bears e) : (m.log e).Honest where
  closed channel hlt hc := List.mem_append_left _ (h.closed channel hlt hc)
  received i channel request hmem := by
    cases List.mem_append.mp hmem with
    | inl hold => exact h.received i channel request hold
    | inr hnew =>
      rw [← List.mem_singleton.mp hnew] at hb
      exact hb
  withheld before after i channel r heq hreceived := by
    cases append_singleton_eq_append_cons heq with
    | inl hlast =>
      -- it is withheld just now, and its channel was there when the request arrived
      obtain ⟨-, rfl, rfl⟩ := hlast
      obtain ⟨request, hmem⟩ := hreceived
      exact h.closed channel (h.received i channel request hmem) hb
    | inr hearlier =>
      obtain ⟨rest, -, heq⟩ := hearlier
      exact h.withheld before rest i channel r heq hreceived

theorem Honest.close (h : m.Honest) (id : ChannelId) : (m.close id).Honest where
  closed channel hlt hc := by
    rw [isOpen_close] at hc
    split at hc
    . next heq =>
      subst heq
      exact List.mem_append_right _ List.mem_cons_self
    . rw [length_wires_close] at hlt
      exact List.mem_append_left _ (h.closed channel hlt hc)
  received i channel request hmem := by
    rw [length_wires_close]
    cases List.mem_append.mp hmem with
    | inl hold => exact h.received i channel request hold
    | inr hnew => cases List.mem_singleton.mp hnew
  withheld before after i channel r heq hreceived := by
    cases append_singleton_eq_append_cons heq with
    | inl hlast => cases hlast.2.2
    | inr hearlier =>
      obtain ⟨rest, -, heq⟩ := hearlier
      exact h.withheld before rest i channel r heq hreceived

theorem Act.honest (h : Act who m m') (hm : m.Honest) : m'.Honest := by
  cases h with
  | log hb ho => exact hm.log hb
  | close id => exact hm.close id
  | record id sent =>
    refine hm.of_journal_eq ?_ ?_ ?_
    . rfl
    . exact Nat.le_of_eq (length_wires_record sent).symm
    . intro channel hlt hc
      rw [length_wires_record] at hlt
      rw [isOpen_record] at hc
      exact ⟨hlt, hc⟩
  | connect wire hw =>
    refine hm.of_journal_eq ?_ ?_ ?_
    . rfl
    . rw [length_wires_connect]
      exact Nat.le_succ _
    . intro channel hlt hc
      rw [length_wires_connect] at hlt
      cases Nat.lt_or_ge channel m.wires.length with
      | inl hold =>
        rw [isOpen_connect_of_lt hold] at hc
        exact ⟨hold, hc⟩
      | inr hnew =>
        have heq : channel = m.wires.length := by omega
        rw [heq, isOpen_connect_length, hw] at hc
        cases hc
  | start chain ho hc => exact hm.of_journal_eq rfl (Nat.le_refl _) (fun _ hlt hc => ⟨hlt, hc⟩)
  | postpone after channel outer r ho =>
    exact hm.of_journal_eq rfl (Nat.le_refl _) (fun _ hlt hc => ⟨hlt, hc⟩)
  | count hw => exact hm.of_journal_eq rfl (Nat.le_refl _) (fun _ hlt hc => ⟨hlt, hc⟩)
  | tune h =>
    refine hm.of_journal_eq h.journal (Nat.le_of_eq (congrArg List.length h.wires.symm)) ?_
    intro channel hlt hc
    rw [h.wires] at hlt
    rw [isOpen_eq_of_wires_eq h.wires] at hc
    exact ⟨hlt, hc⟩

end Machine
end PageDispatch
