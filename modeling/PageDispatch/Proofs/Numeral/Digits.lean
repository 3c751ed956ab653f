import PageDispatch.Numeral.Natural
import PageDispatch.Text.Blank
import Mathlib.Data.List.TakeWhile

/-!
This module contains that numbers are read back from their digits, in every base up to sixteen, if
they are below the bound, and that digits stand when blanks around them are removed.
-/

namespace PageDispatch

namespace Natural

variable {base bound n : Nat}

theorem digitValue?_digitChar {d : Nat} (hd : d < base) (hbase : base ≤ 16) :
    digitValue? base d.digitChar = some d := by
  have hall : ∀ d < 16, digitValue? 16 d.digitChar = some d := by decide
  have hvalue := hall d (by omega)
  unfold digitValue? at hvalue ⊢
  rw [Option.filter_eq_some_iff] at hvalue ⊢
  exact ⟨hvalue.1, decide_eq_true hd⟩

theorem readDigits_append (base bound acc : Nat) (first second : List Char) :
    readDigits base bound acc (first ++ second)
      =
    (readDigits base bound acc first).bind fun acc => readDigits base bound acc second := by
  induction first generalizing acc with
  | nil => rfl
  | cons c rest ih =>
    simp only [List.cons_append, readDigits]
    cases digitValue? base c with
    | none => rfl
    | some d =>
      dsimp only
      split
      . exact ih _
      . rfl

theorem readDigits_digitChar {d acc : Nat} (hd : d < base) (hbase : base ≤ 16)
    (hbound : acc * base + d < bound) :
    readDigits base bound acc [d.digitChar] = .ok (acc * base + d) := by
  simp only [readDigits, digitValue?_digitChar hd hbase, if_pos hbound]

theorem readDigits_toDigits (hone : 1 < base) (hbase : base ≤ 16) (hn : n < bound) :
    readDigits base bound 0 (Nat.toDigits base n) = .ok n := by
  induction n using Nat.strongRecOn with
  | _ n ih =>
    cases Nat.lt_or_ge n base with
    | inl hlt =>
      have hvalue : 0 * base + n = n := by omega
      rw [Nat.toDigits_of_lt_base hlt, readDigits_digitChar hlt hbase (by omega), hvalue]
    | inr hge =>
      have hless : n / base < n := Nat.div_lt_self (by omega) hone
      have hlast : n % base < base := Nat.mod_lt n (by omega)
      have hvalue : n / base * base + n % base = n := Nat.div_add_mod' n base
      rw [Nat.toDigits_of_base_le hone hge, readDigits_append, ih _ hless (by omega)]
      refine (readDigits_digitChar hlast hbase (by omega)).trans ?_
      rw [hvalue]

theorem readDigits_zeros (hpos : 0 < base) (hbase : base ≤ 16) (k bound : Nat)
    (hbound : 0 < bound) : readDigits base bound 0 (List.replicate k '0') = .ok 0 := by
  have hzero : digitValue? base '0' = some 0 := digitValue?_digitChar hpos hbase
  induction k with
  | zero => rfl
  | succ k ih =>
    simp only [List.replicate_succ, readDigits, hzero]
    rw [Nat.zero_mul, if_pos hbound, ih]

/-- What is not headed by a sign is read as digits. -/
theorem readChars_eq_readDigits {c : Char} (hc : c ≠ '+') (rest : List Char) :
    readChars base bound (c :: rest) = readDigits base bound 0 (c :: rest) := by
  unfold readChars
  split
  . next heq => cases heq
  . next heq => cases heq; contradiction
  . next heq => cases heq; contradiction
  . rfl

theorem readWord_toDigits (n : UInt64) :
    readWord (String.ofList (Nat.toDigits 10 n.toNat)) = .ok n := by
  have hread := @readDigits_toDigits 10 wordBound n.toNat (by decide) (by decide) n.toNat_lt
  have hdigits := @Nat.isDigit_of_mem_toDigits 10 n.toNat
  unfold readWord readWordIn
  rw [String.toList_ofList]
  cases hcs : Nat.toDigits 10 n.toNat with
  | nil => exact absurd hcs Nat.toDigits_ne_nil
  | cons c rest =>
    have hsign : c ≠ '+' := by
      rintro rfl
      have := hdigits (by decide) (by decide) (hcs ▸ List.mem_cons_self)
      contradiction
    rw [readChars_eq_readDigits hsign, ← hcs, hread]
    exact congrArg Except.ok UInt64.ofNat_toNat

theorem head?_toDigits_ne (hn : 0 < n) : (Nat.toDigits 10 n).head? ≠ some '0' := by
  induction n using Nat.strongRecOn with
  | _ n ih =>
    cases Nat.lt_or_ge n 10 with
    | inl hlt =>
      have hall : ∀ d < 10, 0 < d → d.digitChar ≠ '0' := by decide
      rw [Nat.toDigits_of_lt_base hlt]
      simpa using hall n hlt hn
    | inr hge =>
      have hfirst := ih (n / 10) (by omega) (by omega)
      rw [Nat.toDigits_of_base_le (by decide) hge]
      cases hcs : Nat.toDigits 10 (n / 10) with
      | nil => exact absurd hcs Nat.toDigits_ne_nil
      | cons c rest =>
        rw [hcs] at hfirst
        exact hfirst

end Natural

namespace Blank

theorem not_isBlank_of_isDigit {c : Char} (h : c.isDigit = true) : isBlank c = false := by
  simp only [Char.isDigit, Bool.and_eq_true, decide_eq_true_eq] at h
  have hc : 48 ≤ c.toNat ∧ c.toNat ≤ 57 :=
    ⟨UInt32.le_iff_toNat_le.mp h.1, UInt32.le_iff_toNat_le.mp h.2⟩
  unfold isBlank
  simp
  omega

theorem dropWhile_isBlank_eq_self {cs : List Char} (h : ∀ c ∈ cs, isBlank c = false) :
    cs.dropWhile isBlank = cs := by
  cases cs with
  | nil => rfl
  | cons c rest => exact List.dropWhile_cons_of_neg (by simp [h c List.mem_cons_self])

theorem trimChars_append {before core rest : List Char} (hbefore : ∀ c ∈ before, isBlank c = true)
    (hcore : ∀ c ∈ core, isBlank c = false) (hrest : ∀ c ∈ rest, isBlank c = true) :
    trimChars (before ++ core ++ rest) = core := by
  have hback : ∀ c ∈ rest.reverse, isBlank c = true :=
    fun c hc => hrest c (List.mem_reverse.mp hc)
  have hnone : ∀ c ∈ core.reverse, isBlank c = false :=
    fun c hc => hcore c (List.mem_reverse.mp hc)
  unfold trimChars
  rw [List.append_assoc, List.dropWhile_append_of_pos hbefore, List.dropWhile_append,
    dropWhile_isBlank_eq_self hcore]
  split
  . next hempty =>
    rw [List.dropWhile_eq_nil_iff.mpr hrest, List.isEmpty_iff.mp hempty]
    rfl
  . rw [List.reverse_append, List.dropWhile_append_of_pos hback, dropWhile_isBlank_eq_self hnone,
      List.reverse_reverse]

theorem trimChars_eq_self {cs : List Char} (h : ∀ c ∈ cs, isBlank c = false) :
    trimChars cs = cs := by
  have htrim := trimChars_append (List.forall_mem_nil _) h (List.forall_mem_nil _)
  rwa [List.nil_append, List.append_nil] at htrim

/-- A text is what is left of it without blanks, between blanks. -/
theorem exists_trimChars (cs : List Char) :
    ∃ before rest, cs = before ++ trimChars cs ++ rest ∧
      (∀ c ∈ before, isBlank c = true) ∧ ∀ c ∈ rest, isBlank c = true := by
  let kept := cs.dropWhile isBlank
  refine ⟨cs.takeWhile isBlank, (kept.reverse.takeWhile isBlank).reverse, ?_, ?_, ?_⟩
  . have hkept : trimChars cs ++ (kept.reverse.takeWhile isBlank).reverse = kept := by
      unfold trimChars
      rw [← List.reverse_append, List.takeWhile_append_dropWhile, List.reverse_reverse]
    rw [List.append_assoc, hkept, List.takeWhile_append_dropWhile]
  . intro c hc
    exact List.mem_takeWhile_imp hc
  . intro c hc
    exact List.mem_takeWhile_imp (List.mem_reverse.mp hc)

theorem trimChars_ne_nil {c : Char} {cs : List Char} (hmem : c ∈ cs) (hc : isBlank c = false) :
    trimChars cs ≠ [] := by
  intro hnil
  unfold trimChars at hnil
  rw [List.reverse_eq_nil_iff, List.dropWhile_eq_nil_iff] at hnil
  rw [← @List.takeWhile_append_dropWhile _ isBlank cs, List.mem_append] at hmem
  have hblank : isBlank c = true := by
    cases hmem with
    | inl hmem => exact List.mem_takeWhile_imp hmem
    | inr hmem => exact hnil c (List.mem_reverse.mpr hmem)
  rw [hc] at hblank
  cases hblank

end Blank
end PageDispatch
