import PageDispatch.Proofs.Config.Environment

/-!
This module contains which texts are sizes: the digits of a number below 2 ^ 64, decimal ones, or
hexadecimal ones behind a mark, with blanks around them. Larger numbers are refused as a whole.
-/

namespace PageDispatch
namespace EngineConfig

variable {s : String} {cs digits : List Char} {m n : Nat}

/-- Whether characters are a number: decimal digits, or hexadecimal ones behind a mark. -/
def SizeDigits (cs : List Char) (n : Nat) : Prop :=
  (∃ digits, (cs = '0' :: 'x' :: digits ∨ cs = '0' :: 'X' :: digits) ∧
    Natural.Writes 16 digits n) ∨
  Natural.Writes 10 cs n

/-- Whether a text gives a number, between blanks. -/
def GivesSize (s : String) (n : Nat) : Prop :=
  ∃ before core rest, s.toList = before ++ core ++ rest ∧
    (∀ c ∈ before, Blank.isBlank c = true) ∧ (∀ c ∈ rest, Blank.isBlank c = true) ∧
    SizeDigits core n

theorem SizeDigits.not_isBlank (h : SizeDigits cs n) : ∀ c ∈ cs, Blank.isBlank c = false := by
  rcases h with ⟨digits, hcs, hwrites⟩ | hwrites
  . have hdigits := hwrites.not_isBlank (by decide)
    rcases hcs with rfl | rfl
    . exact List.forall_mem_cons.mpr ⟨by decide, List.forall_mem_cons.mpr ⟨by decide, hdigits⟩⟩
    . exact List.forall_mem_cons.mpr ⟨by decide, List.forall_mem_cons.mpr ⟨by decide, hdigits⟩⟩
  . exact hwrites.not_isBlank (by decide)

theorem givesSize_iff : GivesSize s n ↔ SizeDigits (Blank.trim s).toList n := by
  unfold Blank.trim
  rw [String.toList_ofList]
  constructor
  . rintro ⟨before, core, rest, hs, hbefore, hrest, hsize⟩
    rw [hs, Blank.trimChars_append hbefore hsize.not_isBlank hrest]
    exact hsize
  . intro hsize
    have ⟨before, rest, hs, hbefore, hrest⟩ := Blank.exists_trimChars s.toList
    exact ⟨before, _, rest, hs, hbefore, hrest, hsize⟩

theorem not_writes_of_marked (h : cs = '0' :: 'x' :: digits ∨ cs = '0' :: 'X' :: digits) :
    ¬Natural.Writes 10 cs n := by
  rcases h with rfl | rfl
  . exact not_writes_of_mark (Or.inl rfl) (by simp)
  . exact not_writes_of_mark (Or.inr rfl) (by simp)

theorem SizeDigits.unique (hm : SizeDigits cs m) (hn : SizeDigits cs n) : m = n := by
  rcases hm with ⟨first, hfirst, hm⟩ | hm
  . rcases hn with ⟨second, hsecond, hn⟩ | hn
    . have hsame : first = second := by
        rcases hfirst with rfl | rfl <;> simpa using hsecond
      subst hsame
      exact hm.unique (by decide) (by decide) hn
    . exact absurd hn (not_writes_of_marked hfirst)
  . rcases hn with ⟨second, hsecond, hn⟩ | hn
    . exact absurd hm (not_writes_of_marked hsecond)
    . exact hm.unique (by decide) (by decide) hn

/-- A text gives one number at most. -/
theorem GivesSize.unique (hm : GivesSize s m) (hn : GivesSize s n) : m = n :=
  (givesSize_iff.mp hm).unique (givesSize_iff.mp hn)

theorem parseStackSize_eq_some_iff_givesSize {n : UInt64} :
    parseStackSize s = some n ↔ GivesSize s n.toNat := by
  rw [parseStackSize_eq_some_iff, givesSize_iff]
  exact Iff.rfl

/-- A number that does not fit is refused, and no other one is read in its place. -/
theorem parseStackSize_of_givesSize (h : GivesSize s m) :
    parseStackSize s = if m < 2 ^ 64 then some (.ofNat m) else none := by
  split
  . next hlt =>
    rw [parseStackSize_eq_some_iff_givesSize, UInt64.toNat_ofNat_of_lt' hlt]
    exact h
  . next hge =>
    rw [Option.eq_none_iff_forall_ne_some]
    intro n hn
    have heq := h.unique (parseStackSize_eq_some_iff_givesSize.mp hn)
    have hlt := n.toNat_lt
    omega

theorem givesSize_ofList (h : SizeDigits cs n) : GivesSize (String.ofList cs) n :=
  ⟨[], cs, [], by simp, List.forall_mem_nil _, List.forall_mem_nil _, h⟩

/--
A size is read from a text exactly if the text gives it: blanks, then decimal digits of a number
below 2 ^ 64 or hexadecimal ones behind a mark, with a plus sign before them or without, then blanks
again. Numbers from 2 ^ 64 up are refused, as is whatever is no number. So every size is read back
from its decimal digits and from its hexadecimal ones, with any zeros before them.
-/
theorem sizes_read_as_given :
    (∀ (s : String) (n : UInt64), parseStackSize s = some n ↔ GivesSize s n.toNat) ∧
    (∀ (s : String) (m : Nat), GivesSize s m →
      parseStackSize s = if m < 2 ^ 64 then some (.ofNat m) else none) ∧
    (∀ s : String, parseStackSize s = none ↔ ∀ m < 2 ^ 64, ¬GivesSize s m) ∧
    ∀ (n : UInt64) (zeros : Nat),
      parseStackSize (.ofList (List.replicate zeros '0' ++ Nat.toDigits 10 n.toNat)) = some n ∧
      parseStackSize
        (.ofList ('0' :: 'x' :: (List.replicate zeros '0' ++ Nat.toDigits 16 n.toNat))) =
          some n := by
  refine ⟨fun s n => parseStackSize_eq_some_iff_givesSize, fun s m => parseStackSize_of_givesSize,
    ?_, ?_⟩
  . intro s
    rw [Option.eq_none_iff_forall_ne_some]
    simp only [ne_eq, parseStackSize_eq_some_iff_givesSize]
    constructor
    . intro h m hm hgives
      apply h (.ofNat m)
      rwa [UInt64.toNat_ofNat_of_lt' hm]
    . intro h n
      exact h n.toNat n.toNat_lt
  . intro n zeros
    have hdecimal := @Natural.writes_toDigits 10 (by decide) (by decide) zeros n.toNat
    have hhexadecimal := @Natural.writes_toDigits 16 (by decide) (by decide) zeros n.toNat
    rw [parseStackSize_eq_some_iff_givesSize, parseStackSize_eq_some_iff_givesSize]
    exact ⟨givesSize_ofList (Or.inr hdecimal),
      givesSize_ofList (Or.inl ⟨_, Or.inl rfl, hhexadecimal⟩)⟩

/-- The first number that does not fit is refused; the last one that fits is read. -/
theorem sizes_of_limits :
    GivesSize "\t0X010000000000000000\n" (2 ^ 64) ∧
    parseStackSize "\t0X010000000000000000\n" = none ∧
    GivesSize " 018446744073709551615" (2 ^ 64 - 1) ∧
    parseStackSize " 018446744073709551615" = some 0xFFFFFFFFFFFFFFFF := by
  have ⟨_, hread, _, _⟩ := sizes_read_as_given
  have hlarge : GivesSize "\t0X010000000000000000\n" (2 ^ 64) :=
    ⟨['\t'], _, ['\n'], by decide, List.forall_mem_singleton.mpr rfl,
      List.forall_mem_singleton.mpr rfl,
      Or.inl ⟨_, Or.inr rfl, Natural.writes_toDigits (by decide) (by decide) 1 (2 ^ 64)⟩⟩
  have hlast : GivesSize " 018446744073709551615" (2 ^ 64 - 1) :=
    ⟨[' '], _, [], by decide, List.forall_mem_singleton.mpr rfl, List.forall_mem_nil _,
      Or.inr (Natural.writes_toDigits (by decide) (by decide) 1 (2 ^ 64 - 1))⟩
  exact ⟨hlarge, hread _ _ hlarge, hlast, hread _ _ hlast⟩

end EngineConfig
end PageDispatch
