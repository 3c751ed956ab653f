import Mathlib.Data.List.Forall2
import Mathlib.Data.List.Induction
import Mathlib.Data.Nat.Digits.Defs
import PageDispatch.Proofs.Numeral.Digits

/-!
This module contains which texts are read as a number: one digit or more, behind one plus sign if
any, whose value is below the bound. Zeros at the front do not count.
-/

namespace PageDispatch
namespace Natural

variable {base bound acc m n d : Nat} {c : Char} {cs : List Char} {values : List Nat}

/-- Whether a character, a capital letter or a small one, is the digit of a value. -/
def IsDigit (base : Nat) (c : Char) (d : Nat) : Prop := d < base ∧ c.toLower = d.digitChar

/-- Whether characters are the digits of a number. -/
def Spells (base : Nat) (cs : List Char) (n : Nat) : Prop :=
  ∃ values, List.Forall₂ (IsDigit base) cs values ∧ Nat.ofDigits base values.reverse = n

/-- Whether characters are one digit or more of a number, behind one plus sign if any. -/
def Writes (base : Nat) (cs : List Char) (n : Nat) : Prop :=
  ∃ digits, (cs = digits ∨ cs = '+' :: digits) ∧ digits ≠ [] ∧ Spells base digits n

theorem forall_ascii {p : Char → Prop} (h : ∀ n < 128, p (.ofNat n)) (hc : c.toNat < 128) :
    p c := by
  have hp := h c.toNat hc
  rwa [Char.ofNat_toNat] at hp

theorem digitValue?_eq_some_iff_of_le (hbase : base ≤ 16) :
    digitValue? base c = some d ↔ digitValue? 16 c = some d ∧ d < base := by
  unfold digitValue?
  simp only [Option.filter_eq_some_iff, decide_eq_true_eq]
  constructor
  . rintro ⟨hvalue, hd⟩
    exact ⟨⟨hvalue, by omega⟩, hd⟩
  . rintro ⟨⟨hvalue, _⟩, hd⟩
    exact ⟨hvalue, hd⟩

/-- Digits are of ASCII. -/
theorem lt_of_digitValue? (h : digitValue? base c = some d) : c.toNat < 128 := by
  unfold digitValue? at h
  rw [Option.filter_eq_some_iff] at h
  have hle : c.val ≤ 'z'.val := by
    rcases h with ⟨hvalue, _⟩
    split at hvalue
    . next hc => exact UInt32.le_trans hc.2 (by decide)
    . split at hvalue
      . next hc => exact hc.2
      . split at hvalue
        . next hc => exact UInt32.le_trans hc.2 (by decide)
        . cases hvalue
  exact Nat.lt_of_le_of_lt (UInt32.le_iff_toNat_le.mp hle) (by decide)

theorem lt_of_toLower (h : c.toLower.toNat < 128) : c.toNat < 128 := by
  unfold Char.toLower at h
  split at h
  . next hc => exact Nat.lt_of_le_of_lt (UInt32.le_iff_toNat_le.mp hc.2) (by decide)
  . exact h

theorem digitValue?_eq_some_iff (hbase : base ≤ 16) :
    digitValue? base c = some d ↔ IsDigit base c d := by
  have hascii : c.toNat < 128 → ∀ d < 16, digitValue? 16 c = some d ↔ c.toLower = d.digitChar :=
    forall_ascii (p := fun c => ∀ d < 16, digitValue? 16 c = some d ↔ c.toLower = d.digitChar)
      (by decide +kernel)
  have hdigit : ∀ d < 16, d.digitChar.toNat < 128 := by decide
  rw [digitValue?_eq_some_iff_of_le hbase, and_comm]
  unfold IsDigit
  apply and_congr_right
  intro hd
  constructor
  . intro h
    exact (hascii (lt_of_digitValue? h) d (by omega)).mp h
  . intro h
    apply (hascii _ d (by omega)).mpr h
    apply lt_of_toLower
    rw [h]
    exact hdigit d (by omega)

theorem le_foldl (hbase : 0 < base) (values : List Nat) (acc : Nat) :
    acc ≤ values.foldl (fun acc d => acc * base + d) acc := by
  induction values generalizing acc with
  | nil => exact Nat.le_refl acc
  | cons d rest ih =>
    rw [List.foldl_cons]
    have hle := ih (acc * base + d)
    have hmul := Nat.le_mul_of_pos_right acc hbase
    omega

theorem foldl_eq_ofDigits (base : Nat) (values : List Nat) :
    values.foldl (fun acc d => acc * base + d) 0 = Nat.ofDigits base values.reverse := by
  induction values using List.reverseRecOn with
  | nil => rfl
  | append_singleton rest d ih =>
    rw [List.foldl_append, ih, List.reverse_append, List.reverse_singleton, List.singleton_append,
      Nat.ofDigits_cons, Nat.mul_comm, Nat.add_comm]
    rfl

/-- Digits are read from the left, each on top of what stands before it. -/
theorem readDigits_eq_ok_iff (hpos : 0 < base) (hbase : base ≤ 16) (hacc : acc < bound) :
    readDigits base bound acc cs = .ok n ↔
      ∃ values, List.Forall₂ (IsDigit base) cs values ∧
        values.foldl (fun acc d => acc * base + d) acc = n ∧ n < bound := by
  induction cs generalizing acc with
  | nil =>
    simp only [readDigits, Except.ok.injEq, List.forall₂_nil_left_iff, exists_eq_left,
      List.foldl_nil]
    omega
  | cons c rest ih =>
    simp only [readDigits, List.forall₂_cons_left_iff, ← digitValue?_eq_some_iff hbase]
    constructor
    . intro h
      split at h
      . cases h
      . next d hd =>
        split at h
        . next hlt =>
          obtain ⟨values, hvalues, hfold, hn⟩ := (ih hlt).mp h
          refine ⟨d :: values, ⟨d, values, hd, ?_, rfl⟩, hfold, hn⟩
          simpa only [digitValue?_eq_some_iff hbase] using hvalues
        . cases h
    . rintro ⟨_, ⟨d, values, hd, hvalues, rfl⟩, hfold, hn⟩
      rw [hd]
      have hle := le_foldl hpos values (acc * base + d)
      rw [List.foldl_cons] at hfold
      have hlt : acc * base + d < bound := by omega
      dsimp only
      rw [if_pos hlt, ih hlt]
      exact ⟨values, by simpa only [digitValue?_eq_some_iff hbase] using hvalues, hfold, hn⟩

theorem readDigits_zero_eq_ok_iff (hpos : 0 < base) (hbase : base ≤ 16) (hbound : 0 < bound) :
    readDigits base bound 0 cs = .ok n ↔ Spells base cs n ∧ n < bound := by
  rw [readDigits_eq_ok_iff hpos hbase hbound]
  unfold Spells
  simp only [foldl_eq_ofDigits, ← and_assoc, exists_and_right]

theorem not_spells_plus (hbase : base ≤ 16) (rest : List Char) : ¬Spells base ('+' :: rest) n := by
  have hplus : ∀ d < 16, ('+').toLower ≠ d.digitChar := by decide
  rintro ⟨_ | ⟨d, values⟩, hdigits, -⟩
  . cases hdigits
  . rw [List.forall₂_cons] at hdigits
    have ⟨hd, hlower⟩ := hdigits.1
    exact hplus d (by omega) hlower

theorem writes_plus_iff (hbase : base ≤ 16) (digits : List Char) :
    Writes base ('+' :: digits) n ↔ digits ≠ [] ∧ Spells base digits n := by
  unfold Writes
  constructor
  . rintro ⟨other, rfl | heq, hne, hspells⟩
    . exact absurd hspells (not_spells_plus hbase digits)
    . cases heq
      exact ⟨hne, hspells⟩
  . rintro ⟨hne, hspells⟩
    exact ⟨digits, Or.inr rfl, hne, hspells⟩

theorem writes_iff (hcs : ∀ digits, cs ≠ '+' :: digits) :
    Writes base cs n ↔ cs ≠ [] ∧ Spells base cs n := by
  unfold Writes
  constructor
  . rintro ⟨digits, rfl | rfl, hne, hspells⟩
    . exact ⟨hne, hspells⟩
    . exact absurd rfl (hcs digits)
  . rintro ⟨hne, hspells⟩
    exact ⟨cs, Or.inl rfl, hne, hspells⟩

theorem exists_isDigit_of_mem (h : List.Forall₂ (IsDigit base) cs values) (hc : c ∈ cs) :
    ∃ d, IsDigit base c d := by
  induction h with
  | nil => cases hc
  | cons hdigit _ ih =>
    cases hc with
    | head => exact ⟨_, hdigit⟩
    | tail _ hc => exact ih hc

theorem Writes.isDigit_of_mem (h : Writes base cs n) (hc : c ∈ cs) (hplus : c ≠ '+') :
    ∃ d, IsDigit base c d := by
  have ⟨digits, hcs, _, values, hdigits, _⟩ := h
  apply exists_isDigit_of_mem hdigits
  rcases hcs with rfl | rfl
  . exact hc
  . exact List.mem_of_ne_of_mem hplus hc

theorem readChars_eq_ok_iff (hpos : 0 < base) (hbase : base ≤ 16) (hbound : 0 < bound) :
    readChars base bound cs = .ok n ↔ Writes base cs n ∧ n < bound := by
  unfold readChars
  split
  . simp [writes_iff]
  . simp [writes_plus_iff hbase]
  . next digits hne =>
    rw [readDigits_zero_eq_ok_iff hpos hbase hbound, writes_plus_iff hbase]
    have : digits ≠ [] := by rintro rfl; exact hne rfl
    simp [this]
  . next hnil _ hplus =>
    rw [readDigits_zero_eq_ok_iff hpos hbase hbound, writes_iff hplus]
    have hne : cs ≠ [] := hnil
    simp [hne]

theorem Writes.unique (hpos : 0 < base) (hbase : base ≤ 16) (hm : Writes base cs m)
    (hn : Writes base cs n) : m = n := by
  have hread : ∀ k, Writes base cs k → k < m + n + 1 →
      readChars base (m + n + 1) cs = .ok k := by
    intro k hk hlt
    exact (readChars_eq_ok_iff hpos hbase (Nat.succ_pos _)).mpr ⟨hk, hlt⟩
  have hfirst := hread m hm (by omega)
  rw [hread n hn (by omega), Except.ok.injEq] at hfirst
  exact hfirst.symm

/-- Digits are no blanks. -/
theorem IsDigit.not_isBlank {d : Nat} (hbase : base ≤ 16) (h : IsDigit base c d) :
    Blank.isBlank c = false := by
  have hall : c.toNat < 128 → Blank.isBlank c = true → ∀ d < 16, c.toLower ≠ d.digitChar :=
    forall_ascii
      (p := fun c => Blank.isBlank c = true → ∀ d < 16, c.toLower ≠ d.digitChar)
      (by decide +kernel)
  have hascii := lt_of_digitValue? ((digitValue?_eq_some_iff hbase).mpr h)
  cases hblank : Blank.isBlank c with
  | false => rfl
  | true =>
    have hd : d < 16 := Nat.lt_of_lt_of_le h.1 hbase
    exact absurd h.2 (hall hascii hblank d hd)

theorem Writes.not_isBlank (hbase : base ≤ 16) (h : Writes base cs n) :
    ∀ c ∈ cs, Blank.isBlank c = false := by
  intro c hc
  cases Decidable.em (c = '+') with
  | inl hplus =>
    subst hplus
    decide
  | inr hplus =>
    have ⟨d, hd⟩ := h.isDigit_of_mem hc hplus
    exact hd.not_isBlank hbase

/-- Numbers are written by their digits, with zeros before them or without. -/
theorem writes_toDigits (hone : 1 < base) (hbase : base ≤ 16) (zeros n : Nat) :
    Writes base (List.replicate zeros '0' ++ Nat.toDigits base n) n := by
  have hpos : 0 < base := by omega
  refine ⟨_, Or.inl rfl, by simp [Nat.toDigits_ne_nil], ?_⟩
  have hread : readDigits base (n + 1) 0 (List.replicate zeros '0' ++ Nat.toDigits base n)
      = .ok n := by
    rw [readDigits_append, readDigits_zeros hpos hbase zeros _ (Nat.succ_pos n)]
    exact readDigits_toDigits hone hbase (Nat.lt_succ_self n)
  exact ((readDigits_zero_eq_ok_iff hpos hbase (Nat.succ_pos n)).mp hread).1

/-- Words are read from what writes a number below their bound. -/
theorem readWordIn_eq_ok_iff (hpos : 0 < base) (hbase : base ≤ 16) {n : UInt64} :
    readWordIn base cs = .ok n ↔ Writes base cs n.toNat := by
  have hread : ∀ m, readChars base wordBound cs = .ok m ↔ Writes base cs m ∧ m < wordBound :=
    fun m => readChars_eq_ok_iff hpos hbase (by decide)
  unfold readWordIn
  constructor
  . intro h
    cases hm : readChars base wordBound cs with
    | error e =>
      rw [hm] at h
      cases h
    | ok m =>
      rw [hm] at h
      cases h
      have ⟨hwrites, hlt⟩ := (hread m).mp hm
      rwa [UInt64.toNat_ofNat_of_lt' hlt]
  . intro h
    rw [(hread n.toNat).mpr ⟨h, n.toNat_lt⟩]
    exact congrArg Except.ok UInt64.ofNat_toNat

end Natural
end PageDispatch
