import Mathlib.Data.List.Forall2
import Mathlib.Data.List.Nodup
import Mathlib.Data.Nat.Digits.Defs
import PageDispatch.Proofs.Request.Fields

/-!
This module contains which identifiers requests have. Header fields may name one, by 26 digits in
base 32. These are two bits more than an identifier has: numbers from 2 ^ 128 up lose them.
-/

namespace PageDispatch
namespace RequestId

variable {s t : String} {m n d : Nat} {c : Char} {digits : List Nat}

/-- Whether a character, capital or small, is the digit of a value. -/
def IsDigit (c : Char) (d : Nat) : Prop := alphabet[d]? = some c.toUpper

instance : Decidable (IsDigit c d) := inferInstanceAs (Decidable (_ = _))

/-- Whether a text is made of 26 digits, which are those of a number in base 32. -/
def Spells (s : String) (n : Nat) : Prop :=
  ∃ digits, List.Forall₂ IsDigit s.toList digits ∧ digits.length = length ∧
    Nat.ofDigits 32 digits.reverse = n

/-- Whether a text spells an identifier in full. -/
def IsUlid (s : String) : Prop := ∃ n < 2 ^ 128, Spells s n

/-- The identifier of a number, of which the lowest 128 bits count. -/
def ofNat (n : Nat) : RequestId := ⟨.ofNat 128 n⟩

section Digits

theorem nodup_alphabet : alphabet.Nodup := by decide

theorem digitValue?_eq_some_iff : digitValue? c = some d ↔ IsDigit c d := by
  unfold digitValue? IsDigit
  rw [List.idxOf?_eq_some_iff, List.getElem?_eq_some_iff]
  constructor
  . rintro ⟨hlt, heq, -⟩
    exact ⟨hlt, heq⟩
  . rintro ⟨hlt, heq⟩
    refine ⟨hlt, heq, ?_⟩
    intro j hj hother
    have hsame := nodup_alphabet.getElem_inj_iff.mp (hother.trans heq.symm)
    omega

theorem IsDigit.lt (h : IsDigit c d) : d < 32 := by
  have ⟨hlt, _⟩ := List.getElem?_eq_some_iff.mp h
  exact hlt

/-- Digits are of ASCII, so each of them is one octet. -/
theorem IsDigit.utf8Size (h : IsDigit c d) : c.utf8Size = 1 := by
  have hascii : alphabet.all (·.val ≤ 127) := by decide
  have hupper := of_decide_eq_true (List.all_eq_true.mp hascii _ (List.mem_of_getElem? h))
  rw [Char.utf8Size_eq_one_iff]
  unfold Char.toUpper at hupper
  split at hupper
  . next hletter => exact UInt32.le_trans hletter.2 (by decide)
  . exact hupper

theorem mapM_digitValue?_eq_some_iff {cs : List Char} :
    cs.mapM digitValue? = some digits ↔ List.Forall₂ IsDigit cs digits := by
  induction cs generalizing digits with
  | nil => simp [eq_comm]
  | cons c rest ih =>
    simp only [List.mapM_cons, List.forall₂_cons_left_iff, ← ih, ← digitValue?_eq_some_iff]
    simp only [Option.pure_def, Option.bind_eq_bind, Option.bind_eq_some_iff, Option.some.injEq]
    simp [eq_comm]

theorem utf8ByteSize_of_digits {cs : List Char} (h : List.Forall₂ IsDigit cs digits) :
    (String.ofList cs).utf8ByteSize = digits.length := by
  induction h with
  | nil => rfl
  | cons hdigit _ ih =>
    rw [String.ofList_cons, String.utf8ByteSize_append, String.utf8ByteSize_singleton, ih,
      hdigit.utf8Size, List.length_cons, Nat.add_comm]

theorem shiftLeft_or_ofNat (n : Nat) (hd : d < 32) :
    (BitVec.ofNat 128 n <<< 5) ||| BitVec.ofNat 128 d = BitVec.ofNat 128 (d + 32 * n) := by
  apply BitVec.eq_of_toNat_eq
  have hshift : (n % 2 ^ 128) <<< 5 % 2 ^ 128 = (n % 2 ^ 123) <<< 5 := by
    simp only [Nat.shiftLeft_eq]
    omega
  rw [BitVec.toNat_or, BitVec.toNat_shiftLeft, BitVec.toNat_ofNat, BitVec.toNat_ofNat,
    BitVec.toNat_ofNat, hshift, Nat.mod_eq_of_lt (by omega : d < 2 ^ 128),
    ← Nat.shiftLeft_add_eq_or_of_lt hd, Nat.shiftLeft_eq]
  omega

theorem ofDigits_eq_ofNat (h : ∀ d ∈ digits, d < 32) :
    ofDigits digits = ofNat (Nat.ofDigits 32 digits.reverse) := by
  unfold ofDigits ofNat
  congr 1
  induction digits using List.reverseRecOn with
  | nil => rfl
  | append_singleton rest d ih =>
    rw [List.forall_mem_append, List.forall_mem_singleton] at h
    rw [List.foldl_append, ih h.1, List.reverse_append, List.reverse_singleton,
      List.singleton_append, Nat.ofDigits_cons]
    exact shiftLeft_or_ofNat _ h.2

theorem ofDigits_range (base n k : Nat) :
    Nat.ofDigits base ((List.range k).map fun i => n / base ^ i % base) = n % base ^ k := by
  induction k with
  | zero => simp [Nat.mod_one]
  | succ k ih =>
    rw [List.range_succ, List.map_append, Nat.ofDigits_append, ih, Nat.mod_pow_succ]
    simp

theorem utf8ByteSize_of_forall₂ (h : List.Forall₂ IsDigit s.toList digits) :
    s.utf8ByteSize = digits.length := by
  rw [← utf8ByteSize_of_digits h, String.ofList_toList]

theorem forall_lt_of_digits {cs : List Char} (h : List.Forall₂ IsDigit cs digits) :
    ∀ d ∈ digits, d < 32 := by
  induction h with
  | nil => simp
  | cons hdigit _ ih => exact List.forall_mem_cons.mpr ⟨hdigit.lt, ih⟩

theorem isDigit_getD (hd : d < 32) : IsDigit (alphabet.getD d '0') d := by
  have hall : ∀ d < 32, alphabet[d]? = some (alphabet.getD d '0').toUpper := by decide
  exact hall d hd

theorem IsDigit.toUpper_eq (h : IsDigit c d) : c.toUpper = alphabet.getD d '0' := by
  unfold IsDigit at h
  rw [List.getD_eq_getElem?_getD, h]
  rfl

theorem map_toUpper_of_digits {cs : List Char} (h : List.Forall₂ IsDigit cs digits) :
    cs.map Char.toUpper = digits.map (alphabet.getD · '0') := by
  induction h with
  | nil => rfl
  | cons hdigit _ ih => rw [List.map_cons, List.map_cons, hdigit.toUpper_eq, ih]

end Digits

section Spelling

theorem parse_eq_ok_iff {id : RequestId} : parse s = .ok id ↔ ∃ n, Spells s n ∧ id = ofNat n := by
  unfold parse
  constructor
  . intro h
    split at h
    . next hsize =>
      split at h
      . next digits hdigits =>
        cases h
        have hforall := mapM_digitValue?_eq_some_iff.mp hdigits
        have hlength := (utf8ByteSize_of_forall₂ hforall).symm.trans hsize
        exact ⟨_, ⟨digits, hforall, hlength, rfl⟩, ofDigits_eq_ofNat (forall_lt_of_digits hforall)⟩
      . cases h
    . cases h
  . rintro ⟨n, ⟨digits, hforall, hlength, rfl⟩, rfl⟩
    rw [if_pos ((utf8ByteSize_of_forall₂ hforall).trans hlength)]
    simp only [mapM_digitValue?_eq_some_iff.mpr hforall]
    rw [ofDigits_eq_ofNat (forall_lt_of_digits hforall)]

theorem Spells.unique (hm : Spells s m) (hn : Spells s n) : m = n := by
  obtain ⟨first, hfirst, -, rfl⟩ := hm
  obtain ⟨second, hsecond, -, rfl⟩ := hn
  rw [← mapM_digitValue?_eq_some_iff] at hfirst hsecond
  rw [hfirst, Option.some.injEq] at hsecond
  rw [hsecond]

/-- Texts that spell one number differ in nothing but letter case. -/
theorem Spells.upperAscii_eq (hs : Spells s n) (ht : Spells t n) :
    Lowercase.upperAscii s = Lowercase.upperAscii t := by
  obtain ⟨first, hfirst, hlength, rfl⟩ := hs
  obtain ⟨second, hsecond, hlength', hvalue⟩ := ht
  have heq : second.reverse = first.reverse := by
    apply Nat.ofDigits_inj_of_len_eq (by omega) _ _ _ hvalue
    . simp [hlength, hlength']
    . simpa using forall_lt_of_digits hsecond
    . simpa using forall_lt_of_digits hfirst
  unfold Lowercase.upperAscii
  rw [map_toUpper_of_digits hfirst, map_toUpper_of_digits hsecond, List.reverse_inj.mp heq]

theorem Spells.upperAscii (h : Spells s n) : Spells (Lowercase.upperAscii s) n := by
  obtain ⟨digits, hforall, hlength, hvalue⟩ := h
  refine ⟨digits, ?_, hlength, hvalue⟩
  unfold Lowercase.upperAscii
  rw [String.toList_ofList, map_toUpper_of_digits hforall, List.forall₂_map_left_iff,
    List.forall₂_same]
  intro d hd
  exact isDigit_getD (forall_lt_of_digits hforall d hd)

theorem Spells.eq_iff (hs : Spells s m) (ht : Spells t n) :
    m = n ↔ Lowercase.upperAscii s = Lowercase.upperAscii t := by
  constructor
  . rintro rfl
    exact hs.upperAscii_eq ht
  . intro heq
    apply hs.upperAscii.unique
    rw [heq]
    exact ht.upperAscii

/-- What is printed of an identifier spells it in full. -/
theorem spells_toString (id : RequestId) : Spells id.toString id.value.toNat := by
  refine ⟨(List.range length).reverse.map fun i => id.value.toNat / 32 ^ i % 32, ?_, by simp, ?_⟩
  . unfold toString
    rw [String.toList_ofList, List.forall₂_map_left_iff, List.forall₂_map_right_iff,
      List.forall₂_same]
    intro i _
    rw [Nat.shiftRight_eq_div_pow, Nat.pow_mul]
    exact isDigit_getD (Nat.mod_lt _ (by decide))
  . rw [← List.map_reverse, List.reverse_reverse, ofDigits_range]
    apply Nat.mod_eq_of_lt
    exact Nat.lt_trans id.value.isLt (by decide)

theorem upperAscii_toString (id : RequestId) :
    Lowercase.upperAscii id.toString = id.toString := by
  have hupper : ∀ d < 32, (alphabet.getD d '0').toUpper = alphabet.getD d '0' := by decide
  unfold Lowercase.upperAscii toString
  rw [String.toList_ofList, List.map_map]
  congr 1
  apply List.map_congr_left
  intro i _
  exact hupper _ (Nat.mod_lt _ (by decide))

theorem toNat_ofNat (n : Nat) : (ofNat n).value.toNat = n % 2 ^ 128 := BitVec.toNat_ofNat n 128

theorem ofNat_eq_ofNat_iff : ofNat m = ofNat n ↔ m % 2 ^ 128 = n % 2 ^ 128 := by
  rw [← toNat_ofNat, ← toNat_ofNat, BitVec.toNat_inj]
  exact RequestId.mk.injEq _ _ ▸ Iff.rfl

/-- A text is printed again, in capitals, if all bits of its number are kept. -/
theorem Spells.toString_eq_iff (h : Spells s n) :
    (ofNat n).toString = Lowercase.upperAscii s ↔ n < 2 ^ 128 := by
  have hprinted := spells_toString (ofNat n)
  rw [toNat_ofNat] at hprinted
  constructor
  . intro heq
    rw [heq] at hprinted
    have hvalue := h.upperAscii.unique hprinted
    omega
  . intro hlt
    rw [Nat.mod_eq_of_lt hlt] at hprinted
    rw [← upperAscii_toString]
    exact hprinted.upperAscii_eq h

end Spelling

section Header

variable {value : String} {id : RequestId}

theorem ofHeader?_eq_some_iff :
    ofHeader? value = some id ↔ ∃ n, Spells (Blank.trim value) n ∧ id = ofNat n := by
  rw [← parse_eq_ok_iff]
  unfold ofHeader?
  cases parse (Blank.trim value) with
  | ok other => simp [Except.toOption]
  | error e => simp [Except.toOption]

theorem ofHeader?_eq_none_iff :
    ofHeader? value = none ↔ ∀ n, ¬Spells (Blank.trim value) n := by
  rw [Option.eq_none_iff_forall_ne_some]
  simp only [ne_eq, ofHeader?_eq_some_iff]
  constructor
  . intro h n hn
    exact h _ ⟨n, hn, rfl⟩
  . rintro h _ ⟨n, hn, -⟩
    exact h n hn

end Header

end RequestId

namespace Request

open RequestId

variable (r : Request) (fields : List (String × String)) (name value : String)

theorem withHeaders_concat :
    r.withHeaders (fields ++ [(name, value)]) = (r.withHeaders fields).withHeader name value := by
  unfold withHeaders
  rw [List.foldl_append]
  rfl

theorem valuesOf_concat (wanted : String) :
    valuesOf wanted (fields ++ [(name, value)])
      =
    valuesOf wanted fields ++ if sameName name wanted then [value] else [] := by
  unfold valuesOf
  rw [List.filter_append, List.map_append]
  cases h : sameName name wanted <;> simp [h]

/-- Of the fields that may name an identifier, the last one that does decides. -/
theorem id_withHeaders :
    (r.withHeaders fields).id
      =
    ((valuesOf headerName fields).reverse.findSome? ofHeader?).getD r.id := by
  induction fields using List.reverseRecOn with
  | nil => rfl
  | append_singleton rest field ih =>
    rw [withHeaders_concat, valuesOf_concat]
    unfold withHeader
    dsimp only
    rw [ih]
    split
    . cases hid : ofHeader? field.2 <;> simp [hid]
    . simp

/-- Whether this is the last of some texts that spells a number, which is this one. -/
def SpelledLast (values : List String) (value : String) (n : Nat) : Prop :=
  Spells (Blank.trim value) n ∧
    ∃ before after, values = before ++ value :: after ∧
      ∀ other ∈ after, ∀ m, ¬Spells (Blank.trim other) m

theorem findSome?_reverse_eq_some_iff {values : List String} {id : RequestId} :
    values.reverse.findSome? ofHeader? = some id ↔
      ∃ value n, SpelledLast values value n ∧ id = ofNat n := by
  rw [List.findSome?_eq_some_iff]
  constructor
  . rintro ⟨after, value, before, hvalues, hid, hafter⟩
    obtain ⟨n, hn, rfl⟩ := ofHeader?_eq_some_iff.mp hid
    refine ⟨value, n, ⟨hn, before.reverse, after.reverse, ?_, ?_⟩, rfl⟩
    . rw [← List.reverse_inj, hvalues]
      simp
    . intro other hother
      exact ofHeader?_eq_none_iff.mp (hafter other (List.mem_reverse.mp hother))
  . rintro ⟨value, n, ⟨hn, before, after, rfl, hafter⟩, rfl⟩
    refine ⟨after.reverse, value, before.reverse, by simp, ?_, ?_⟩
    . exact ofHeader?_eq_some_iff.mpr ⟨n, hn, rfl⟩
    . intro other hother
      exact ofHeader?_eq_none_iff.mpr (hafter other (List.mem_reverse.mp hother))

theorem findSome?_reverse_eq_none_iff {values : List String} :
    values.reverse.findSome? ofHeader? = none ↔
      ∀ value ∈ values, ∀ n, ¬Spells (Blank.trim value) n := by
  rw [List.findSome?_eq_none_iff]
  simp only [List.mem_reverse, ofHeader?_eq_none_iff]

/--
The identifier of a request is the one that the last of its fields names that are meant for it and
spell a number; if there is none, it stays. A text that spells a number is printed again, in
capitals, exactly if the number has at most 128 bits: the others are taken as well, but lose bits.
So texts of at most 128 bits that name one identifier are the same up to letter case, and texts in
general if their numbers agree in the lowest 128 bits. A single text is taken on the same terms.
-/
theorem named_by_last_spelled :
    let id := (r.withHeaders fields).id
    let values := valuesOf headerName fields
    ((id = r.id ∧ ∀ value ∈ values, ∀ n, ¬Spells (Blank.trim value) n) ∨
      ∃ value n, SpelledLast values value n ∧ id = ofNat n ∧
        (id.toString = Lowercase.upperAscii (Blank.trim value) ↔ n < 2 ^ 128)) ∧
    (∀ first second m n, Spells (Blank.trim first) m → Spells (Blank.trim second) n →
      (ofNat m = ofNat n ↔ m % 2 ^ 128 = n % 2 ^ 128) ∧
      (m < 2 ^ 128 → n < 2 ^ 128 → (ofNat m = ofNat n ↔
        Lowercase.upperAscii (Blank.trim first) = Lowercase.upperAscii (Blank.trim second)))) ∧
    (∀ fresh value n, Spells (Blank.trim value) n →
      ofHeaderOr fresh (some value) = ofNat n) ∧
    (∀ fresh value, (∀ n, ¬Spells (Blank.trim value) n) →
      ofHeaderOr fresh (some value) = fresh) ∧
    ∀ fresh, ofHeaderOr fresh none = fresh := by
  intro id values
  have hid : id = (values.reverse.findSome? ofHeader?).getD r.id := id_withHeaders r fields
  refine ⟨?_, ?_, ?_, ?_, fun fresh => rfl⟩
  . cases hlast : values.reverse.findSome? ofHeader? with
    | none =>
      rw [hlast] at hid
      exact Or.inl ⟨hid, findSome?_reverse_eq_none_iff.mp hlast⟩
    | some named =>
      rw [hlast] at hid
      obtain ⟨value, n, hspelled, rfl⟩ := findSome?_reverse_eq_some_iff.mp hlast
      refine Or.inr ⟨value, n, hspelled, hid, ?_⟩
      rw [hid]
      exact hspelled.1.toString_eq_iff
  . intro first second m n hm hn
    refine ⟨ofNat_eq_ofNat_iff, ?_⟩
    intro hmlt hnlt
    rw [ofNat_eq_ofNat_iff, Nat.mod_eq_of_lt hmlt, Nat.mod_eq_of_lt hnlt]
    exact hm.eq_iff hn
  . intro fresh value n hn
    simp only [ofHeaderOr, Option.bind_some, ofHeader?_eq_some_iff.mpr ⟨n, hn, rfl⟩,
      Option.getD_some]
  . intro fresh value hnone
    simp only [ofHeaderOr, Option.bind_some, ofHeader?_eq_none_iff.mpr hnone, Option.getD_none]

/-- Fields of which the second one names an identifier, and the third one does not. -/
def renamed : List (String × String) := [
  ("X-Request-Id", "01ARZ3NDEKTSV4RRFFQ69G5FAV"),
  ("x-request-id", " 7zzzzzzzzzzzzzzzzzzzzzzzzz\t"),
  ("X-REQUEST-ID", "01ARZ3NDEKTSV4RRFFQ69G5FAU")]

theorem named_of_renamed :
    Spells (Blank.trim " 7zzzzzzzzzzzzzzzzzzzzzzzzz\t") (2 ^ 128 - 1) ∧
    ofHeaderOr .zero (some " 7zzzzzzzzzzzzzzzzzzzzzzzzz\t") = ofNat (2 ^ 128 - 1) ∧
    ((new .zero .get "/").withHeaders renamed).id.toString = "7ZZZZZZZZZZZZZZZZZZZZZZZZZ" := by
  have hspells : Spells (Blank.trim " 7zzzzzzzzzzzzzzzzzzzzzzzzz\t") (2 ^ 128 - 1) :=
    ⟨7 :: List.replicate 25 31, by decide, rfl, rfl⟩
  have hnamed := named_by_last_spelled (new .zero .get "/") renamed
  exact ⟨hspells, hnamed.2.2.1 .zero _ _ hspells, by decide⟩

/-- A field with a number of more than 128 bits. -/
def overflowing : List (String × String) := [("x-request-id", "80000000000000000000000001")]

/-- No field names an identifier in full, and still the request gets another one. -/
theorem not_kept_of_overflowing :
    (∀ value ∈ valuesOf headerName overflowing, ¬IsUlid (Blank.trim value)) ∧
    ((new .zero .get "/").withHeaders overflowing).id ≠ .zero := by
  have hvalues : valuesOf headerName overflowing = ["80000000000000000000000001"] := by decide
  have hspells : Spells (Blank.trim "80000000000000000000000001") (2 ^ 128 + 1) :=
    ⟨8 :: List.replicate 24 0 ++ [1], by decide, rfl, rfl⟩
  constructor
  . rw [hvalues, List.forall_mem_singleton]
    rintro ⟨n, hlt, hn⟩
    have heq := hspells.unique hn
    omega
  . decide

end Request
end PageDispatch
