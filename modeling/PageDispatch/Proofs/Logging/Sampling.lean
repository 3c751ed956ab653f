import Mathlib.Data.Nat.Periodic
import PageDispatch.Logging.Sampling

/-!
This module contains which records are kept by a sampler of every so many events. Spans and severe
events are all kept, and do not count. The others are counted from the first one on, and of as many
of them in a row as the distance says, whatever stands between them, exactly one is kept.
-/

namespace PageDispatch

/-- Whether a record may be left out: it is an event, and not a severe one. -/
def LogRecord.isQuiet : LogRecord → Bool
  | .span => false
  | r => !r.isSevere

namespace Sampler

variable {N c : UInt64} {r : LogRecord} {records : List LogRecord}

/-- A new sampler that keeps quiet events at a distance. -/
def every (interval : UInt64) : Sampler := ⟨.sampled, interval, 0⟩

/-- How a sampler stands after some records. -/
def after (s : Sampler) (records : List LogRecord) : Sampler :=
  records.foldl (fun s r => (s.keep r).2) s

/-- Of the decisions on some records, those on the quiet ones. -/
def onQuiet (records : List LogRecord) (kept : List Bool) : List Bool :=
  ((records.zip kept).filter (·.1.isQuiet)).map (·.2)

/-- Whether it is the turn of the quiet event with a number. At a distance of zero it never is. -/
def IsDue (interval number : Nat) : Prop := 0 < interval ∧ interval ∣ number

instance (interval number : Nat) : Decidable (IsDue interval number) :=
  inferInstanceAs (Decidable (_ ∧ _))

theorem keep_of_not_isQuiet (s : Sampler) (h : r.isQuiet = false) : s.keep r = (true, s) := by
  cases r with
  | span => rfl
  | event level =>
    have hsevere : (LogRecord.event level).isSevere = true := by
      simpa [LogRecord.isQuiet] using h
    unfold keep
    cases s.mode <;> simp [hsevere]

theorem keep_of_isQuiet (h : r.isQuiet = true) :
    Sampler.keep ⟨.sampled, N, c⟩ r
      =
    (decide (IsDue N.toNat c.toNat), ⟨.sampled, N, c + 1⟩) := by
  cases r with
  | span => cases h
  | event level =>
    have hsevere : (LogRecord.event level).isSevere = false := by
      simpa [LogRecord.isQuiet] using h
    have hdue : (decide (0 < N) && c % N == 0) = decide (IsDue N.toNat c.toNat) := by
      rw [Bool.eq_iff_iff]
      simp [IsDue, UInt64.lt_iff_toNat_lt, ← UInt64.toNat_inj, Nat.dvd_iff_mod_eq_zero]
    unfold keep
    simp [hsevere, hdue]

@[simp]
theorem length_keepAll (s : Sampler) (records : List LogRecord) :
    (s.keepAll records).length = records.length := by
  induction records generalizing s with
  | nil => rfl
  | cons r rest ih => exact congrArg (· + 1) (ih _)

theorem keepAll_append (s : Sampler) (first second : List LogRecord) :
    s.keepAll (first ++ second) = s.keepAll first ++ (s.after first).keepAll second := by
  induction first generalizing s with
  | nil => rfl
  | cons r rest ih => exact congrArg (_ :: ·) (ih _)

/-- A record that is not quiet is kept, and the others as if it were not there. -/
theorem keepAll_insert (s : Sampler) (first second : List LogRecord) (h : r.isQuiet = false) :
    s.keepAll (first ++ r :: second)
      =
    (s.keepAll (first ++ second)).insertIdx first.length true := by
  induction first generalizing s with
  | nil => simp [keepAll, keep_of_not_isQuiet s h]
  | cons other rest ih => simp [keepAll, ih]

/-- The counter counts the quiet events. -/
theorem after_sampled (N c : UInt64) (records : List LogRecord) :
    after ⟨.sampled, N, c⟩ records = ⟨.sampled, N, c + .ofNat (records.countP (·.isQuiet))⟩ := by
  induction records generalizing c with
  | nil => simp [after]
  | cons r rest ih =>
    unfold after at ih ⊢
    rw [List.foldl_cons, List.countP_cons]
    cases hr : r.isQuiet with
    | false =>
      rw [keep_of_not_isQuiet _ hr, ih]
      simp
    | true =>
      rw [keep_of_isQuiet hr, ih, if_pos rfl, UInt64.ofNat_add, UInt64.add_assoc]
      congr 2
      exact UInt64.add_comm _ _

/-- While the counter does not overflow, quiet events are decided on by their number. -/
theorem onQuiet_keepAll (h : c.toNat + records.countP (·.isQuiet) < 2 ^ 64) :
    onQuiet records (keepAll ⟨.sampled, N, c⟩ records)
      =
    (List.range' c.toNat (records.countP (·.isQuiet))).map fun k => decide (IsDue N.toNat k) := by
  induction records generalizing c with
  | nil => rfl
  | cons r rest ih =>
    rw [List.countP_cons] at h ⊢
    unfold onQuiet at ih ⊢
    rw [keepAll, List.zip_cons_cons, List.filter_cons]
    cases hr : r.isQuiet with
    | false =>
      rw [keep_of_not_isQuiet _ hr, if_neg (by simp)]
      exact ih (by simpa [hr] using h)
    | true =>
      -- The counter is the number of the next quiet event, so it must not start again at zero.
      simp only [hr, if_true] at h
      have hnext : (c + 1).toNat = c.toNat + 1 := by
        rw [UInt64.toNat_add]
        exact Nat.mod_eq_of_lt (show c.toNat + 1 < 2 ^ 64 by omega)
      rw [keep_of_isQuiet hr, if_pos rfl, if_pos rfl, List.map_cons, ih (by omega), hnext]
      rfl

theorem count_isDue {n : Nat} (h : 0 < n) : n.count (IsDue n) = 1 := by
  have hfirst : (Finset.range n).filter (IsDue n) = {0} := by
    ext k
    rw [Finset.mem_filter, Finset.mem_range, Finset.mem_singleton]
    constructor
    . rintro ⟨hk, -, hdvd⟩
      exact Nat.eq_zero_of_dvd_of_lt hdvd hk
    . rintro rfl
      exact ⟨h, h, Nat.dvd_zero n⟩
  rw [Nat.count_eq_card_filter_range, hfirst, Finset.card_singleton]

/-- In a window as long as the distance it is the turn of one number, wherever the window starts. -/
theorem countP_isDue {n : Nat} (h : 0 < n) (k : Nat) :
    (List.range' k n).countP (IsDue n ·) = 1 := by
  have hperiodic : Function.Periodic (IsDue n) n := by
    intro k
    simp [IsDue]
  have hrange : Multiset.Ico k (k + n) = (List.range' k n : Multiset Nat) :=
    congrArg (List.range' k · : Nat → Multiset Nat) (Nat.add_sub_cancel_left k n)
  have hcount := Nat.filter_multiset_Ico_card_eq_of_periodic k n (IsDue n) hperiodic
  rw [count_isDue h, hrange, Multiset.filter_coe, Multiset.coe_card] at hcount
  rw [List.countP_eq_length_filter, hcount]

theorem after_every (N : UInt64) (records : List LogRecord) :
    (every N).after records = ⟨.sampled, N, .ofNat (records.countP (·.isQuiet))⟩ := by
  rw [every, after_sampled, UInt64.zero_add]

theorem toNat_ofNat_countP (h : records.length < 2 ^ 64) :
    (UInt64.ofNat (records.countP (·.isQuiet))).toNat = records.countP (·.isQuiet) :=
  UInt64.toNat_ofNat_of_lt' (Nat.lt_of_le_of_lt List.countP_le_length h)

/-- Within a stretch of the records, quiet events are decided on by their number in all of them. -/
theorem onQuiet_window {before window rest : List LogRecord}
    (h : (before ++ window ++ rest).length < 2 ^ 64) :
    onQuiet window
        ((((every N).keepAll (before ++ window ++ rest)).drop before.length).take window.length)
      =
    (List.range' (before.countP (·.isQuiet)) (window.countP (·.isQuiet))).map
      fun k => decide (IsDue N.toNat k) := by
  have hbefore := before.countP_le_length (p := (·.isQuiet))
  have hwindow := window.countP_le_length (p := (·.isQuiet))
  rw [List.length_append, List.length_append] at h
  have hstart := toNat_ofNat_countP (show before.length < 2 ^ 64 by omega)
  rw [List.append_assoc, keepAll_append, keepAll_append, after_every,
    List.drop_left' (length_keepAll _ _), List.take_left' (length_keepAll _ _),
    onQuiet_keepAll (by omega), hstart]

/--
Of fewer than 2 ^ 64 records, those that are not quiet are all kept, and the others as if these were
not there. A quiet event is kept exactly if the distance divides the number of those before it. So
of as many quiet events in a row as the distance says exactly one is kept, whatever stands between
them, and none ever at a distance of zero.
-/
theorem keeps_every_nth (N : UInt64) (records : List LogRecord) (h : records.length < 2 ^ 64) :
    let kept := (every N).keepAll records
    kept.length = records.length ∧
    (∀ before r rest, records = before ++ r :: rest → r.isQuiet = false →
      kept = ((every N).keepAll (before ++ rest)).insertIdx before.length true) ∧
    (∀ before r rest, records = before ++ r :: rest → r.isQuiet = true →
      kept[before.length]? =
        some (decide (0 < N.toNat ∧ N.toNat ∣ before.countP (·.isQuiet)))) ∧
    (0 < N → ∀ before window rest, records = before ++ window ++ rest →
      window.countP (·.isQuiet) = N.toNat →
      (onQuiet window ((kept.drop before.length).take window.length)).count true = 1) ∧
    (N = 0 → ∀ decision ∈ onQuiet records kept, decision = false) := by
  intro kept
  refine ⟨length_keepAll _ _, ?_, ?_, ?_, ?_⟩
  . rintro before r rest rfl hr
    exact keepAll_insert _ before rest hr
  . rintro before r rest rfl hr
    rw [List.length_append] at h
    have hnumber := toNat_ofNat_countP (show before.length < 2 ^ 64 by omega)
    unfold kept
    rw [keepAll_append, List.getElem?_append_right (by simp), length_keepAll, Nat.sub_self,
      after_every, keepAll, keep_of_isQuiet hr, hnumber]
    rfl
  . rintro hpos before window rest rfl hwindow
    unfold kept
    rw [onQuiet_window h, hwindow, List.count, List.countP_map]
    refine Eq.trans ?_ (countP_isDue (UInt64.lt_iff_toNat_lt.mp hpos) (before.countP (·.isQuiet)))
    congr 1
    funext k
    simp
  . rintro rfl decision hdecision
    have hcount := records.countP_le_length (p := (·.isQuiet))
    unfold kept at hdecision
    rw [every, onQuiet_keepAll (show 0 + _ < _ by omega)] at hdecision
    obtain ⟨k, -, rfl⟩ := List.mem_map.mp hdecision
    exact decide_eq_false (fun hdue => Nat.lt_irrefl 0 hdue.1)

/-- Four quiet events with other records between them. -/
def mingled : List LogRecord :=
  [.event .debug, .event .error, .span, .event .info, .event .warn, .event .trace, .event .debug]

theorem kept_of_mingled :
    mingled.length < 2 ^ 64 ∧
    (every 3).keepAll mingled = ((every 3).keepAll (mingled.eraseIdx 4)).insertIdx 4 true ∧
    ((every 3).keepAll mingled)[5]? = some false ∧
    ((every 3).keepAll mingled)[6]? = some true ∧
    (onQuiet (mingled.drop 3) (((every 3).keepAll mingled).drop 3 |>.take 4)).count true = 1 := by
  have hlength : mingled.length < 2 ^ 64 := by decide
  have ⟨_, hloud, hnumber, hwindow, _⟩ := keeps_every_nth 3 mingled hlength
  refine ⟨hlength, ?_, ?_, ?_, ?_⟩
  . exact hloud (mingled.take 4) (.event .warn) (mingled.drop 5) rfl rfl
  . exact hnumber (mingled.take 5) (.event .trace) [.event .debug] rfl rfl
  . exact hnumber (mingled.take 6) (.event .debug) [] rfl rfl
  . exact hwindow (by decide) (mingled.take 3) (mingled.drop 3) [] rfl rfl

end Sampler
end PageDispatch
