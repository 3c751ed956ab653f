import PageDispatch.Proofs.Machine.Execution

/-!
This module contains what the operations of a machine do in the name of one dispatch: they call on
nobody unless the channel of the dispatch is open, or the call belongs to the one just before it.
-/

namespace PageDispatch

namespace Event

/-- Whether an event is a call of foreign code of a dispatch, or a response handed to a channel. -/
def isCall : Event → Bool
  | building _ _ | instantiating _ _ | evaluating _ _ _ _ | reporting _ _ | sending _ _ _ => true
  | _ => false

/-- Whether an event follows another one without a look at the channel in between. -/
def leadsTo : Event → Event → Bool
  | received _ _ _, building _ _ => true
  | instantiating _ _, evaluating _ _ _ _ => true
  | _, _ => false

end Event

/-- Whether the last of some events leads to another event without a look at the channel. -/
def LeadsTo (es : List Event) (e : Event) : Prop :=
  ∃ last, es.getLast? = some last ∧ last.leadsTo e = true

/-- Whether no event calls on anybody, but for those that the event before leads to. -/
def Fades (before es : List Event) : Prop :=
  ∀ first e last, es = first ++ e :: last → e.isCall = true → LeadsTo (before ++ first) e

theorem fades_nil (before : List Event) : Fades before [] := by
  intro first e last heq
  cases first <;> cases heq

theorem Fades.concat {before es : List Event} {e : Event} (h : Fades before es)
    (he : e.isCall = true → LeadsTo (before ++ es) e) : Fades before (es ++ [e]) := by
  intro first e' last heq hcall
  cases Machine.append_singleton_eq_append_cons heq with
  | inl hlast =>
    obtain ⟨-, rfl, rfl⟩ := hlast
    exact he hcall
  | inr hearlier =>
    obtain ⟨rest, -, heq⟩ := hearlier
    exact h first e' rest heq hcall

namespace Machine

/-- What is done at a time, if a dispatch is to call on nobody once its channel is closed. -/
inductive Deed (i : Nat) (channel : ChannelId) (m : Machine) : Machine → Prop
  | log {e : Event} (hb : m.Bears e)
    (h : e.dispatch? = some i → e.isCall = true →
      m.isOpen channel = true ∨ LeadsTo (m.strand i).events e) : Deed i channel m (m.log e)
  | close (id : ChannelId) : Deed i channel m (m.close id)
  | still {m' : Machine} (hg : m.Grows m') (hj : m'.journal = m.journal) : Deed i channel m m'

abbrev Deeds (i : Nat) (channel : ChannelId) : Machine → Machine → Prop :=
  Relation.ReflTransGen (Deed i channel)

variable {m m' : Machine} {i : Nat} {channel id outer : ChannelId} {who : Nat → Prop}
  {before after : List Event}

theorem Deed.grows (h : Deed i channel m m') : m.Grows m' := by
  cases h with
  | log hb h => exact { Grows.refl (m := m) with journal := List.prefix_append _ _ }
  | close id => exact (Act.close id : Act (fun _ => False) m _).grows
  | still hg hj => exact hg

theorem Deeds.grows (h : Deeds i channel m m') : m.Grows m' := by
  induction h with
  | refl => exact .refl
  | tail _ hlast ih => exact ih.trans hlast.grows

theorem Act.deed (h : Act who m m') (hi : ¬who i) : Deed i channel m m' := by
  have hgrows := h.grows
  cases h with
  | log hb ho =>
    refine .log hb ?_
    intro hown
    exact absurd (ho i hown).1 hi
  | close id => exact .close id
  | record id sent => exact .still hgrows rfl
  | start chain ho hc => exact .still hgrows rfl
  | postpone after channel outer r ho => exact .still hgrows rfl
  | connect wire hw => exact .still hgrows rfl
  | count hw => exact .still hgrows rfl
  | tune h => exact .still hgrows h.journal

theorem Acts.deeds (h : Acts who m m') (hi : ¬who i) : Deeds i channel m m' := by
  induction h with
  | refl => exact .refl
  | tail _ hlast ih => exact ih.tail (hlast.deed hi)

theorem Deed.received_lt {j : Nat} {request : Request} (h : Deed i channel m m')
    (hm : .received j id request ∈ m.journal → id < m.wires.length)
    (hmem : .received j id request ∈ m'.journal) : id < m'.wires.length := by
  refine Nat.lt_of_lt_of_le ?_ h.grows.wires
  cases h with
  | log hb h =>
    cases List.mem_append.mp hmem with
    | inl hold => exact hm hold
    | inr hnew =>
      rw [← List.mem_singleton.mp hnew] at hb
      exact hb
  | close closed =>
    cases List.mem_append.mp hmem with
    | inl hold => exact hm hold
    | inr hnew => cases List.mem_singleton.mp hnew
  | still hg hj => exact hm (hj ▸ hmem)

theorem Deeds.received_lt {j : Nat} {request : Request} (h : Deeds i channel m m')
    (hm : .received j id request ∈ m.journal → id < m.wires.length)
    (hmem : .received j id request ∈ m'.journal) : id < m'.wires.length := by
  induction h with
  | refl => exact hm hmem
  | tail _ hlast ih => exact hlast.received_lt ih hmem

theorem Deed.fades {es : List Event} (h : Deed i channel m m') (hc : m.isOpen channel = false)
    (hes : (m.strand i).events = before ++ es) (hfades : Fades before es) :
    ∃ es', (m'.strand i).events = before ++ es' ∧ Fades before es' := by
  cases h with
  | @log e hb h =>
    cases Decidable.em (e.dispatch? = some i) with
    | inr hne =>
      rw [strand_log_of_ne hne]
      exact ⟨es, hes, hfades⟩
    | inl hown =>
      refine ⟨es ++ [e], ?_, ?_⟩
      . rw [strand_log_of_eq hown, ← List.append_assoc, ← hes]
        rfl
      . refine hfades.concat ?_
        intro hcall
        rw [← hes]
        refine (h hown hcall).resolve_left ?_
        rw [hc]
        exact Bool.false_ne_true
  | close id =>
    rw [(Act.close id : Act (fun _ => False) m _).strand_eq (fun hwho => hwho.1)]
    exact ⟨es, hes, hfades⟩
  | still hg hj =>
    have hevents : (m'.strand i).events = (m.strand i).events := by
      unfold strand
      rw [hj]
    exact ⟨es, hevents.trans hes, hfades⟩

/-- Once its channel is closed, a dispatch fades out. -/
theorem Deeds.fades (h : Deeds i channel m m') (hlt : channel < m.wires.length)
    (hc : m.isOpen channel = false) :
    ∃ es, (m'.strand i).events = (m.strand i).events ++ es ∧ Fades (m.strand i).events es := by
  induction h with
  | refl => exact ⟨[], (List.append_nil _).symm, fades_nil _⟩
  | tail hmid hlast ih =>
    obtain ⟨es, hes, hfades⟩ := ih
    exact hlast.fades (Deeds.grows hmid |>.closed channel hlt hc) hes hfades

/-- Whenever a channel was closed, there was a machine that closed it. -/
theorem Deeds.exists_closing (h : Deeds i channel m m')
    (hj : m'.journal = before ++ .closed id :: after) (hm : m.journal <+: before) :
    ∃ c, Deeds i channel m c ∧ c.journal = before ∧ Deeds i channel (c.close id) m' := by
  induction h generalizing after with
  | refl =>
    have hle := hm.length_le
    rw [hj, List.length_append, List.length_cons] at hle
    omega
  | @tail mid last hmid hlast ih =>
    cases hlast with
    | log hb h =>
      cases append_singleton_eq_append_cons hj with
      | inl hlast =>
        obtain ⟨-, -, rfl⟩ := hlast
        exact hb.elim
      | inr hearlier =>
        obtain ⟨rest, -, heq⟩ := hearlier
        obtain ⟨c, hbefore, hc, hafter⟩ := ih heq
        exact ⟨c, hbefore, hc, hafter.tail (.log hb h)⟩
    | close closed =>
      cases append_singleton_eq_append_cons hj with
      | inl hlast =>
        obtain ⟨-, heq, hid⟩ := hlast
        cases hid
        exact ⟨mid, hmid, heq, .refl⟩
      | inr hearlier =>
        obtain ⟨rest, -, heq⟩ := hearlier
        obtain ⟨c, hbefore, hc, hafter⟩ := ih heq
        exact ⟨c, hbefore, hc, hafter.tail (.close closed)⟩
    | still hg hsame =>
      obtain ⟨c, hbefore, hc, hafter⟩ := ih (hsame.symm.trans hj)
      exact ⟨c, hbefore, hc, hafter.tail (.still hg hsame)⟩

end Machine
end PageDispatch
