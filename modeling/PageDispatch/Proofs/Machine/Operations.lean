import PageDispatch.Proofs.Machine.Act

/-!
This module contains the operations of a machine as sequences of acts. A job acts on behalf of the
dispatch that its run belongs to, and of the dispatches that it starts.
-/

namespace PageDispatch
namespace Machine

variable {m m' : Machine} {who : Nat → Prop} {outer : ChannelId}

theorem acts_log {e : Event} (hb : m.Bears e) (ho : m.Allows who e.dispatch?) :
    Acts who m (m.log e) := .single (.log hb ho)

theorem acts_close (id : ChannelId) : Acts who m (m.close id) := .single (.close id)

theorem acts_signal (s : Signal) : Acts who m (m.signal outer s) := by
  cases s with
  | note value => exact acts_log trivial .none
  | close => exact acts_close outer

theorem acts_signals (signals : List Signal) :
    Acts who m (signals.foldl (fun m s => m.signal outer s) m) := by
  induction signals generalizing m with
  | nil => exact .refl
  | cons s rest ih => exact .trans (acts_signal s) ih

theorem acts_call {α : Type} (c : Call α) : Acts who m (m.call outer c).1 := acts_signals c.signals

theorem guarded_fst (c : Call Response) : (m.guarded outer c).1 = (m.call outer c).1 := by
  unfold guarded
  split
  . next h => rw [h]
  . next h => rw [h]

theorem acts_guarded (c : Call Response) : Acts who m (m.guarded outer c).1 := by
  rw [guarded_fst]
  exact acts_call c

theorem acts_closings (n : Nat) : Acts who m (n.repeat (fun m => m.close outer) m) := by
  induction n with
  | zero => exact .refl
  | succ n ih => exact .trans ih (acts_close outer)

theorem closings_detached (n : Nat) (b : Body) : b.detached.closings n = 0 := by
  cases b with
  | writer calls =>
    simp only [Body.detached, Body.closings, BodyWriter.closings]
    rw [← List.map_take, List.countP_map, List.countP_eq_zero]
    simp
  | _ => rfl

theorem send_snd (c : Channel) (r : Response) :
    (c.send r).2 = { isOpen := c.isOpen && c.closings r == 0, sent := (c.send r).2.sent } := by
  unfold Channel.send
  split <;> rfl

theorem record_eq_setChannel {id : ChannelId} {wire : Wire} (hw : m.wires[id]? = some wire)
    (sent : List SentResponse) :
    m.record id sent = m.setChannel id { wire.channel with sent } := by
  unfold record setChannel
  congr 1
  apply List.ext_getElem?
  intro j
  rw [List.getElem?_modify, List.getElem?_modify]
  cases Nat.decEq id j with
  | isTrue h =>
    subst h
    simp [hw]
  | isFalse h => simp [h]

theorem close_setChannel (id : ChannelId) (isOpen : Bool) (c : Channel) :
    (m.setChannel id { c with isOpen }).close id = (m.setChannel id c).close id := by
  unfold close shut setChannel log
  simp only [List.modify_modify_eq]
  congr 1

theorem closings_setChannel {n : Nat} (hn : 0 < n) (id : ChannelId) (isOpen : Bool) (c : Channel) :
    n.repeat (fun m => m.close id) (m.setChannel id { c with isOpen })
      =
    n.repeat (fun m => m.close id) (m.setChannel id c) := by
  induction n with
  | zero => omega
  | succ n ih =>
    simp only [Nat.repeat]
    cases n with
    | zero =>
      simp only [Nat.repeat]
      apply close_setChannel
    | succ n => rw [ih (Nat.succ_pos n)]

theorem acts_transmit {id : ChannelId} {wire : Wire} (hw : m.wires[id]? = some wire)
    (r : Response) : Acts who m (m.transmit id outer wire r) := by
  unfold transmit
  split
  . exact acts_log trivial .none
  . generalize hown : (if id = outer then r else { r with body := r.body.detached }) = own
    have hsend := send_snd wire.channel own
    have hmid : Acts who m
        ((r.body.closings (wire.channel.calls own)).repeat (fun m => m.close outer)
          (m.setChannel id (wire.channel.send own).2)) := by
      rw [hsend]
      generalize (wire.channel.send own).2.sent = sent
      cases Nat.eq_zero_or_pos (wire.channel.closings own) with
      | inl hzero =>
        rw [hzero]
        simp only [beq_self_eq_true, Bool.and_true]
        rw [← record_eq_setChannel hw]
        exact .trans (.single (.record id sent)) (acts_closings _)
      | inr hpos =>
        -- only an own writer closes the channel before the response is recorded
        have hid : id = outer := by
          apply Decidable.byContradiction
          intro hne
          rw [if_neg hne] at hown
          rw [← hown, Channel.closings, closings_detached] at hpos
          omega
        rw [if_pos hid] at hown
        subst hid hown
        rw [Channel.closings] at hpos
        rw [closings_setChannel hpos id _ { wire.channel with sent }, ← record_eq_setChannel hw]
        exact .trans (.single (.record id sent)) (acts_closings _)
    dsimp only
    split
    . exact hmid
    . exact .trans hmid (acts_log trivial .none)

theorem acts_sendNow {i : Nat} (ho : m.Allows who (some i)) (id : ChannelId) (r : Response) :
    Acts who m (m.sendNow i id outer r) := by
  unfold sendNow
  split
  . next hw =>
    have hb : m.Bears (.withheld i id r) := by simp only [Bears, isOpen, hw]
    exact acts_log hb ho
  . next wire hw =>
    split
    . have hlog : Acts who m (m.log (.sending i id r)) := acts_log trivial ho
      have hsend := hlog.trans (@acts_transmit (m.log (.sending i id r)) who outer id wire hw r)
      split
      . exact hsend.trans (acts_close id)
      . exact hsend
    . next hc =>
      have hb : m.Bears (.withheld i id r) := by simpa [Bears, isOpen, hw] using hc
      exact acts_log hb ho

theorem acts_deliver {d : Dispatch} (ho : m.Allows who (some d.id)) (r : Response) :
    Acts who m (m.deliver d r) := by
  unfold deliver
  split
  . exact acts_sendNow ho d.channel r
  . exact .single (.postpone _ _ _ _ ho)

theorem acts_finish {d : Dispatch} (ho : m.Allows who (some d.id)) (disposition : Disposition)
    (status : Option Status) : Acts who m (m.finish d disposition status) := by
  unfold finish
  dsimp only
  generalize hm : { m with metrics := _ } = next
  have hnext : m.SameWork next := by
    rw [← hm]
    exact ⟨rfl, List.prefix_refl _, id, rfl, rfl, rfl, rfl, rfl⟩
  exact hnext.acts.trans (acts_log trivial (ho.of_grows hnext.grows))

theorem acts_finishWith {d : Dispatch} (ho : m.Allows who (some d.id)) (disposition : Disposition)
    (r : Response) : Acts who m (m.finishWith d disposition r) := by
  have h := acts_deliver ho r
  exact h.trans (acts_finish (ho.of_grows h.grows) _ _)

theorem acts_notFound {d : Dispatch} (ho : m.Allows who (some d.id)) :
    Acts who m (m.notFound d) := by
  unfold notFound
  split
  . have h := @acts_guarded m who d.outer
      (m.settings.fallback.notFound d.context.request)
    exact h.trans (acts_finishWith (d := { d with current := none }) (ho.of_grows h.grows) _ _)
  . exact acts_finish ho _ _

theorem acts_conclude {d : Dispatch} (ho : m.Allows who (some d.id)) (a : Answer) :
    Acts who m (m.conclude d a) := by
  unfold conclude
  dsimp only
  split
  . exact acts_finishWith ho _ _
  . next fatal _ =>
    have h := @acts_guarded m who d.outer
      (m.settings.fallback.onError d.context.request fatal)
    exact h.trans (acts_finishWith (ho.of_grows h.grows) _ _)

theorem fail_fst {run : Run} {unit : String} {position : Option Nat} {failure : UnitFailure}
    {own : Accumulator} :
    (m.fail run unit position failure own).1
      =
    if m.isOpen run.channel then
      ((m.log (.reporting run.owner.id? (run.report unit position failure))).call run.outer
        (m.settings.hook (run.report unit position failure))).1
    else m := by
  unfold fail
  split <;> rfl

theorem acts_fail {run : Run} (ho : m.Allows who run.owner.id?) (unit : String)
    (position : Option Nat) (failure : UnitFailure) (own : Accumulator) :
    Acts who m (m.fail run unit position failure own).1 := by
  rw [fail_fst]
  split
  . have hlog : Acts who m
        (m.log (.reporting run.owner.id? (run.report unit position failure))) :=
      acts_log trivial ho
    exact hlog.trans (acts_call _)
  . exact .refl

theorem failRun_fst {run : Run} {unit : String} {position : Option Nat} {failure : UnitFailure}
    {own : Accumulator} :
    (m.failRun run unit position failure own).1 = (m.fail run unit position failure own).1 := by
  unfold failRun
  split
  . next h => rw [h]
  . next h => rw [h]

theorem acts_failRun {run : Run} (ho : m.Allows who run.owner.id?) (unit : String)
    (position : Option Nat) (failure : UnitFailure) (own : Accumulator) :
    Acts who m (m.failRun run unit position failure own).1 := by
  rw [failRun_fst]
  exact acts_fail ho unit position failure own

theorem acts_respond {run : Run} (ho : m.Allows who run.owner.id?) (unit : String) (position : Nat)
    (status : Status) (message : Option ResponseMessage) (own : Accumulator) :
    Acts who m (m.respond run unit position status message own).1 := by
  unfold respond
  dsimp only
  split
  . exact .refl
  . exact .refl
  . next value =>
    have hcall := @acts_call m who run.outer _ (m.settings.codec value)
    split
    . next h =>
      rw [h] at hcall
      exact hcall
    . next h =>
      rw [h] at hcall
      exact hcall.trans (acts_failRun (ho.of_grows hcall.grows) _ _ _ _)
    . next h =>
      rw [h] at hcall
      exact hcall

theorem acts_apply {run : Run} (ho : m.Allows who run.owner.id?) (unit : String) (position : Nat)
    (outcome : Outcome) (own : Accumulator) :
    Acts who m (m.apply run unit position outcome own).1 := by
  unfold apply
  split
  . cases outcome with
    | rejected =>
      dsimp only
      split
      . exact acts_failRun ho _ _ _ _
      . exact .refl
    | consumed objects locked => exact .refl
    | respondWith status message => exact acts_respond ho _ _ _ _ _
  . exact .refl

theorem acts_exhausted {run : Run} (ho : m.Allows who run.owner.id?) :
    Acts who m (m.exhausted run).1 := by
  unfold exhausted
  split
  . exact acts_failRun ho _ _ _ _
  . exact .refl

theorem acts_resume {s : Suspension} (ho : m.Allows who s.run.owner.id?) (r : Resolved) :
    Acts who m (m.resume s r).1 := by
  unfold resume
  split
  . exact acts_apply ho _ _ _ _
  . exact acts_failRun ho _ _ _ _
  . exact acts_failRun ho _ _ _ _

theorem instantiate_fst {run : Run} {spec : UnitSpec} : (m.instantiate run spec).1
      =
    (({ m with patterns := (m.settings.registry.instantiate m.patterns spec run.context).2 }.log
      (.instantiating run.owner.id? spec)).call run.outer
        (m.settings.registry.instantiate m.patterns spec run.context).1).1 := by
  unfold instantiate
  dsimp only
  split
  . next h => rw [h]
  . next h => rw [h]

theorem acts_instantiate {run : Run} (ho : m.Allows who run.owner.id?) (spec : UnitSpec) :
    Acts who m (m.instantiate run spec).1 := by
  rw [instantiate_fst]
  generalize hm : { m with patterns := _ } = next
  have hnext : m.SameWork next := by
    rw [← hm]
    exact ⟨rfl, List.prefix_refl _, Registry.sound_instantiate, rfl, rfl, rfl, rfl, rfl⟩
  have hlog : Acts who next (next.log (.instantiating run.owner.id? spec)) :=
    acts_log trivial (ho.of_grows hnext.grows)
  exact hnext.acts.trans (hlog.trans (acts_call _))

theorem acts_decorate (context : Context) (decorators : List Decorator) (chain : HandlerChain) :
    Acts who m (m.decorate outer context decorators chain).1 := by
  induction decorators generalizing m chain with
  | nil => exact .refl
  | cons decorator rest ih =>
    have hcall := @acts_call m who outer _ (decorator.decorate chain.view context)
    unfold decorate
    split
    . next h =>
      rw [h] at hcall
      exact hcall.trans (ih _)
    . next h =>
      rw [h] at hcall
      exact hcall
    . next h =>
      rw [h] at hcall
      exact hcall

theorem acts_construct (d : Dispatch) (page : Page) : Acts who m (m.construct d page).1 := by
  have hcall := @acts_call m who d.outer _ (page.build d.context)
  unfold construct
  split
  . next h =>
    rw [h] at hcall
    exact hcall.trans (acts_decorate _ _ _)
  . next h =>
    rw [h] at hcall
    exact hcall
  . next h =>
    rw [h] at hcall
    exact hcall

theorem buildChain_fst {d : Dispatch} {page : Page} :
    (m.buildChain d page).1 = (m.construct d page).1 := by
  unfold buildChain
  split
  . next h => rw [h]
  . next h => rw [h]

theorem acts_buildChain (d : Dispatch) (page : Page) : Acts who m (m.buildChain d page).1 := by
  rw [buildChain_fst]
  exact acts_construct d page

theorem acts_failPage {owner : Owner} (ho : m.Allows who owner.id?) (page : String)
    (context : Context) (channel : ChannelId) (e : CauseChain) :
    Acts who m (m.failPage page context channel outer owner e).1 :=
  acts_fail ho _ _ _ _

theorem acts_breakOff {d : Dispatch} (ho : m.Allows who (some d.id)) (page : String)
    (e : CauseChain) : Acts who m (m.breakOff d page e) := by
  unfold breakOff
  have hfail := @acts_failPage m who d.outer (.dispatch d) ho page d.context d.channel e
  split
  . next h =>
    rw [h] at hfail
    exact hfail.trans (acts_conclude (ho.of_grows hfail.grows) _)
  . next h =>
    rw [h] at hfail
    exact hfail.trans (acts_finish (ho.of_grows hfail.grows) _ _)

theorem acts_tryPage {d : Dispatch} (ho : m.Allows who (some d.id))
    (hc : d.channel < m.wires.length) (page : Page) :
    Acts who m (m.tryPage d page) := by
  unfold tryPage
  dsimp only
  generalize hm : { m with metrics := _ } = next
  have hnext : m.SameWork next := by
    rw [← hm]
    exact ⟨rfl, List.prefix_refl _, id, rfl, rfl, rfl, rfl, rfl⟩
  have hlog : Acts who next (next.log (.building d.id page.name)) :=
    acts_log trivial (ho.of_grows hnext.grows)
  have hbuild := (hnext.acts.trans hlog).trans (acts_buildChain d page)
  split
  . next h =>
    rw [h] at hbuild
    exact hbuild.tail (.start _ (ho.of_grows hbuild.grows) (Nat.lt_of_lt_of_le hc hbuild.grows.wires))
  . next h =>
    rw [h] at hbuild
    exact hbuild.trans (acts_breakOff (ho.of_grows hbuild.grows) _ _)

theorem acts_advance {d : Dispatch} (ho : m.Allows who (some d.id))
    (hc : d.channel < m.wires.length) :
    Acts who m (m.advance d) := by
  unfold advance
  split
  . exact acts_notFound ho
  . next page _ => exact @acts_tryPage m who (d.trying page) ho hc page

theorem acts_complete {d : Dispatch} (ho : m.Allows who (some d.id))
    (hc : d.channel < m.wires.length) (result : ChainResult) :
    Acts who m (m.complete (.dispatch d) result) := by
  unfold complete
  cases result with
  | answered a => exact acts_conclude ho a
  | rejected evaluated rejecter =>
    have hlog : Acts who m (m.log (.rejected d.id d.tried)) := acts_log trivial ho
    exact hlog.trans (acts_advance (ho.of_grows hlog.grows) hc)
  | abandoned evaluated => exact acts_finish ho _ _

theorem acts_runFailedPage {channel : ChannelId} (page : String) (context : Context)
    (e : CauseChain) : Acts who m (m.runFailedPage page context channel e) := by
  unfold runFailedPage
  have hfail := @acts_failPage m who channel .caller .none page context channel e
  split
  . next h =>
    rw [h] at hfail
    exact hfail.trans (acts_log trivial .none)
  . next h =>
    rw [h] at hfail
    exact hfail.trans (acts_log trivial .none)

theorem acts_receive {d : Dispatch} (hw : who m.dispatches) (hid : d.id = m.dispatches)
    (hc : d.channel < m.wires.length) :
    Acts who m (m.receive d) ∧ (m.receive d).Allows who (some d.id) := by
  unfold receive
  generalize hm : { m with metrics := _, dispatches := _ } = next
  have hnext : Acts who m next := by
    have hstart : Acts who m { m with dispatches := m.dispatches + 1 } := .single (.count hw)
    refine hstart.tail (.tune ?_)
    rw [← hm]
    exact ⟨rfl, List.prefix_refl _, id, rfl, rfl, rfl, rfl, rfl⟩
  have ho : next.Allows who (some d.id) := by
    intro i hi
    cases hi
    rw [hid, ← hm]
    exact ⟨hw, Nat.lt_succ_self _⟩
  have hlog : Acts who next (next.log (.received d.id d.channel d.context.request)) :=
    acts_log (Nat.lt_of_lt_of_le hc hnext.grows.wires) ho
  exact ⟨hnext.trans hlog, ho.of_grows hlog.grows⟩

theorem sameWork_tryAdmit : m.SameWork m.tryAdmit.2 :=
  ⟨rfl, List.prefix_refl _, id, Pool.waiting_tryAdmit _, rfl, rfl, rfl, rfl⟩

theorem acts_shed {d : Dispatch} (ho : m.Allows who (some d.id)) : Acts who m (m.shed d) := by
  have h := @acts_guarded m who d.outer (m.settings.fallback.overloaded d.context.request)
  exact h.trans (acts_finishWith (ho.of_grows h.grows) _ _)

theorem acts_dispatch {channel : ChannelId} (hw : who m.dispatches)
    (hc : channel < m.wires.length) (request : Request) (nested : Bool) :
    Acts who m (m.dispatch request channel outer nested) := by
  unfold dispatch
  dsimp only
  generalize hd : m.newDispatch request channel outer nested = d
  have hid : d.id = m.dispatches := by rw [← hd]; rfl
  have hch : d.channel < m.wires.length := by rw [← hd]; exact hc
  have ⟨hreceive, ho⟩ := acts_receive hw hid hch
  have hadmitted := (sameWork_tryAdmit (m := m.receive d))
  have ho' := ho.of_grows hadmitted.grows
  have hall := hreceive.trans hadmitted.acts
  split
  . next h =>
    rw [h] at hall ho'
    exact hall.trans (acts_advance ho' (Nat.lt_of_lt_of_le hch hall.grows.wires))
  . next h =>
    rw [h] at hall ho'
    exact hall.trans (acts_shed ho')

theorem acts_perform (hnew : ∀ i, m.dispatches ≤ i → who i) (action : UnitAction) :
    Acts who m (m.perform outer action) := by
  cases action with
  | signal s => exact acts_signal s
  | registerPage page =>
    refine .single (.tune ?_)
    exact ⟨rfl, List.prefix_refl _, id, rfl, rfl, rfl, rfl, rfl⟩
  | addDecorator decorator =>
    refine .single (.tune ?_)
    exact ⟨rfl, List.prefix_append _ _, id, rfl, rfl, rfl, rfl, rfl⟩
  | dispatch request =>
    have hconnect : Acts who m (m.connect ⟨.new, none⟩).2 := .single (.connect _ rfl)
    have hlt : m.wires.length < (m.connect ⟨.new, none⟩).2.wires.length := by
      rw [length_wires_connect]
      exact Nat.lt_succ_self _
    have hdispatch := @acts_dispatch (m.connect ⟨.new, none⟩).2 who outer m.wires.length
      (hnew _ (Nat.le_refl _)) hlt request true
    exact hconnect.trans hdispatch

theorem acts_performAll (hnew : ∀ i, m.dispatches ≤ i → who i) (actions : List UnitAction) :
    Acts who m (m.performAll outer actions) := by
  unfold performAll
  induction actions generalizing m with
  | nil => exact .refl
  | cons action rest ih =>
    have hfirst := @acts_perform m who outer hnew action
    refine hfirst.trans (ih ?_)
    intro i hi
    exact hnew i (Nat.le_trans hfirst.grows.dispatches hi)

theorem acts_judge {run : Run} (ho : m.Allows who run.owner.id?) (unit : String) (position : Nat)
    (own : Accumulator) (ending : UnitEnding) :
    Acts who m (m.judge run unit position own ending).1 := by
  cases ending with
  | decided outcome => exact acts_apply ho _ _ _ _
  | deferred plan => exact .refl
  | failed e => exact acts_failRun ho _ _ _ _
  | panicked payload => exact acts_failRun ho _ _ _ _

theorem acts_evaluate {run : Run} (ho : m.Allows who run.owner.id?)
    (hnew : ∀ i, m.dispatches ≤ i → who i) (position : Nat) (u : HandlerUnit) :
    Acts who m (m.evaluate run position u).1 := by
  unfold evaluate
  split
  . exact .refl
  . next name _ =>
    dsimp only
    have hlog : Acts who m (m.log (.evaluating run.owner.id? position name run.view)) :=
      acts_log trivial ho
    have hacts := @acts_performAll (m.log (.evaluating run.owner.id? position name run.view)) who
      run.outer hnew (u.evaluate run.view).actions
    have hall := hlog.trans hacts
    have ho' := ho.of_grows hall.grows
    exact hall.trans (@acts_judge _ who (run.edited (u.evaluate run.view).edits) ho' _ _ _ _)

theorem acts_process {run : Run} (ho : m.Allows who run.owner.id?)
    (hnew : ∀ i, m.dispatches ≤ i → who i) (position : Nat) (element : ChainElement) :
    Acts who m (m.process run position element).1 := by
  cases element with
  | unit u => exact acts_evaluate ho hnew _ _
  | spec spec =>
    unfold process
    dsimp only
    have hmade := acts_instantiate ho spec
    split
    . next h =>
      rw [h] at hmade
      refine hmade.trans (acts_evaluate (ho.of_grows hmade.grows) ?_ _ _)
      intro i hi
      exact hnew i (Nat.le_trans hmade.grows.dispatches hi)
    . next h =>
      rw [h] at hmade
      exact hmade.trans (acts_failRun (ho.of_grows hmade.grows) _ _ _ _)

theorem acts_step {run : Run} (ho : m.Allows who run.owner.id?)
    (hnew : ∀ i, m.dispatches ≤ i → who i) : Acts who m (m.step run).1 := by
  unfold step
  split
  . split
    . exact acts_exhausted ho
    . next remnant _ => exact @acts_process m who (run.past remnant) ho hnew _ _
  . exact .refl

theorem acts_turn {job : Job} (ho : m.Allows who job.run.owner.id?)
    (hnew : ∀ i, m.dispatches ≤ i → who i) : Acts who m (m.turn job).1 := by
  cases job with
  | step run => exact acts_step ho hnew
  | resume s r => exact acts_resume ho r

end Machine
end PageDispatch
