import PageDispatch.Proofs.Run.Forecast

/-!
This module contains what a machine tells about the runs of one owner. A dispatch tells about runs
of its own only, and a caller's runs are not told about by any dispatch.
-/

namespace PageDispatch

def Event.isOf (o : Option Nat) (e : Event) : Bool := e.isOfRun && decide (e.dispatch? = o)

namespace Machine

/-- What was done for the runs of a dispatch, or for those that belong to none. -/
def told (m : Machine) (o : Option Nat) : List Event := m.journal.filter (Event.isOf o)

variable {m m' : Machine} {o : Option Nat} {outer : ChannelId} {d : Dispatch}

theorem told_of_journal_eq (h : m'.journal = m.journal) : m'.told o = m.told o := by
  rw [told, h]
  rfl

theorem told_log_of_eq {e : Event} (h : e.isOf o = true) : (m.log e).told o = m.told o ++ [e] := by
  simp [told, log, List.filter_append, h]

theorem told_log_of_ne {e : Event} (h : e.isOf o = false) : (m.log e).told o = m.told o := by
  simp [told, log, List.filter_append, h]

theorem told_close (id : ChannelId) : (m.close id).told o = m.told o :=
  told_log_of_ne (m := m.shut id) rfl

theorem told_signal (s : Signal) : (m.signal outer s).told o = m.told o := by
  cases s with
  | note value => exact told_log_of_ne rfl
  | close => exact told_close outer

theorem told_call {α : Type} (c : Call α) : (m.call outer c).1.told o = m.told o := by
  unfold call
  dsimp only
  induction c.signals generalizing m with
  | nil => rfl
  | cons s rest ih =>
    rw [List.foldl_cons, ih]
    apply told_signal

theorem told_guarded (c : Call Response) : (m.guarded outer c).1.told o = m.told o := by
  rw [guarded_fst]
  apply told_call

theorem told_closings (n : Nat) :
    (n.repeat (fun m => m.close outer) m).told o = m.told o := by
  induction n with
  | zero => rfl
  | succ n ih => exact (told_close outer).trans ih

theorem told_transmit (id : ChannelId) (wire : Wire) (r : Response) :
    (m.transmit id outer wire r).told o = m.told o := by
  unfold transmit
  split
  . exact told_log_of_ne rfl
  . dsimp only
    split
    . apply told_closings
    . rw [told_log_of_ne rfl]
      apply told_closings

theorem told_sendNow (i : Nat) (id : ChannelId) (r : Response) :
    (m.sendNow i id outer r).told o = m.told o := by
  unfold sendNow
  split
  . exact told_log_of_ne rfl
  . next wire _ =>
    split
    . have hsend : ((m.log (.sending i id r)).transmit id outer wire r).told o = m.told o := by
        rw [told_transmit, told_log_of_ne rfl]
      dsimp only
      split
      . exact (told_close id).trans hsend
      . exact hsend
    . exact told_log_of_ne rfl

theorem told_deliver (r : Response) : (m.deliver d r).told o = m.told o := by
  unfold deliver
  split
  . apply told_sendNow
  . exact told_of_journal_eq rfl

theorem told_finish (disposition : Disposition) (status : Option Status) :
    (m.finish d disposition status).told o = m.told o :=
  told_log_of_ne rfl

theorem told_finishWith (disposition : Disposition) (r : Response) :
    (m.finishWith d disposition r).told o = m.told o := by
  unfold finishWith
  rw [told_finish, told_deliver]

theorem told_notFound : (m.notFound d).told o = m.told o := by
  unfold notFound
  split
  . exact (told_finishWith _ _).trans (told_guarded _)
  . apply told_finish

theorem told_conclude (a : Answer) : (m.conclude d a).told o = m.told o := by
  unfold conclude
  dsimp only
  split
  . apply told_finishWith
  . exact (told_finishWith _ _).trans (told_guarded _)

theorem told_decorate (context : Context) (decorators : List Decorator) (chain : HandlerChain) :
    (m.decorate outer context decorators chain).1.told o = m.told o := by
  induction decorators generalizing m chain with
  | nil => rfl
  | cons decorator rest ih =>
    have hcall := @told_call m o outer _ (decorator.decorate chain.view context)
    unfold decorate
    split
    . next h =>
      rw [h] at hcall
      rw [ih, hcall]
    . next h =>
      rw [h] at hcall
      exact hcall
    . next h =>
      rw [h] at hcall
      exact hcall

theorem told_construct (page : Page) : (m.construct d page).1.told o = m.told o := by
  have hcall := @told_call m o d.outer _ (page.build d.context)
  unfold construct
  split
  . next h =>
    rw [h] at hcall
    rw [told_decorate, hcall]
  . next h =>
    rw [h] at hcall
    exact hcall
  . next h =>
    rw [h] at hcall
    exact hcall

theorem told_buildChain (page : Page) : (m.buildChain d page).1.told o = m.told o := by
  rw [buildChain_fst]
  apply told_construct

theorem isOf_reporting_of_ne {owner : Option Nat} {report : FailureReport} (h : owner ≠ o) :
    (Event.reporting owner report).isOf o = false :=
  decide_eq_false h

theorem told_breakOff (h : some d.id ≠ o) (page : String) (e : CauseChain) :
    (m.breakOff d page e).told o = m.told o := by
  have hfail : ∀ run : Run, run.owner = .dispatch d → ∀ unit position failure own,
      (m.fail run unit position failure own).1.told o = m.told o := by
    intro run howner unit position failure own
    rw [fail_fst, howner]
    split
    . rw [told_call]
      apply told_log_of_ne
      exact isOf_reporting_of_ne h
    . rfl
  have hpage : (m.failPage page d.context d.channel d.outer (.dispatch d) e).1.told o = m.told o :=
    hfail _ rfl _ _ _ _
  unfold breakOff
  split
  . next heq =>
    rw [heq] at hpage
    rw [told_conclude, hpage]
  . next heq =>
    rw [heq] at hpage
    rw [told_finish, hpage]

theorem told_tryPage (h : some d.id ≠ o) (page : Page) : (m.tryPage d page).told o = m.told o := by
  unfold tryPage
  dsimp only
  generalize hm : ({ m with metrics := _ } : Machine).log _ = next
  have hnext : next.told o = m.told o := by
    rw [← hm, told_log_of_ne rfl]
    exact told_of_journal_eq rfl
  have hbuild := @told_buildChain next o d page
  split
  . next heq =>
    rw [heq] at hbuild
    exact hbuild.trans hnext
  . next heq =>
    rw [heq] at hbuild
    rw [told_breakOff h, hbuild, hnext]

theorem told_advance (h : some d.id ≠ o) : (m.advance d).told o = m.told o := by
  unfold advance
  split
  . apply told_notFound
  . exact told_tryPage (d := d.trying _) h _

theorem told_dispatch (h : some m.dispatches ≠ o) (request : Request) (channel outer : ChannelId)
    (nested : Bool) : (m.dispatch request channel outer nested).told o = m.told o := by
  unfold dispatch
  dsimp only
  generalize hd : m.newDispatch request channel outer nested = d
  have hid : some d.id ≠ o := by
    rw [← hd]
    exact h
  have hreceived : (m.receive d).tryAdmit.2.told o = m.told o := by
    refine (told_of_journal_eq (m := m.receive d) rfl).trans ?_
    exact told_log_of_ne rfl
  split
  . next heq =>
    rw [heq] at hreceived
    rw [told_advance hid, hreceived]
  . next heq =>
    rw [heq] at hreceived
    exact ((told_finishWith _ _).trans (told_guarded _)).trans hreceived

theorem told_perform (ho : ∀ i, o = some i → i < m.dispatches) (action : UnitAction) :
    (m.perform outer action).told o = m.told o := by
  cases action with
  | signal s => exact told_signal s
  | registerPage page => rfl
  | addDecorator decorator => rfl
  | dispatch request =>
    have hne : some m.dispatches ≠ o := by
      intro heq
      exact Nat.lt_irrefl _ (ho _ heq.symm)
    exact told_dispatch (m := (m.connect ⟨.new, none⟩).2) hne request _ _ _

/-- What a unit does is not told about its own run: the dispatches that it starts are new ones. -/
theorem told_performAll (ho : ∀ i, o = some i → i < m.dispatches) (actions : List UnitAction) :
    (m.performAll outer actions).told o = m.told o := by
  unfold performAll
  induction actions generalizing m with
  | nil => rfl
  | cons action rest ih =>
    have hgrows := (@acts_perform m (fun _ => True) outer (fun _ _ => trivial) action).grows
    rw [List.foldl_cons, ih]
    . exact told_perform ho action
    . intro i hi
      exact Nat.lt_of_lt_of_le (ho i hi) hgrows.dispatches

end Machine
end PageDispatch
