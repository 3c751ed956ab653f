import PageDispatch.Proofs.Numeral.Digits
import PageDispatch.Proofs.Response.Values

/-!
This module contains which typed headers are read back as they were written: lengths and whole
seconds always are, and texts if they are of ASCII. Other texts are written, but cannot be read.
-/

namespace PageDispatch

/-- Whether all characters of a text are of ASCII. -/
def IsAscii (s : String) : Prop := ∀ c ∈ s.toList, c.toNat < 128

instance (s : String) : Decidable (IsAscii s) := List.decidableBAll _ _

section Octets

theorem utf8EncodeChar_of_ascii {c : Char} (hc : c.toNat < 128) :
    String.utf8EncodeChar c = [c.toNat.toUInt8] := by
  have hsize : c.utf8Size = 1 := by
    rw [Char.utf8Size_eq_one_iff, UInt32.le_iff_toNat_le]
    exact Nat.le_of_lt_succ hc
  exact String.utf8EncodeChar_eq_singleton hsize

theorem encode_of_ascii {s : String} (hs : IsAscii s) :
    Utf8.encode s = s.toList.map fun c => c.toNat.toUInt8 := by
  unfold Utf8.encode
  rw [List.map_eq_flatMap]
  apply List.flatMap_congr
  intro c hc
  exact utf8EncodeChar_of_ascii (hs c hc)

/-- A character outside of ASCII has an octet outside of it. -/
theorem exists_mem_utf8EncodeChar {c : Char} (hc : 128 ≤ c.toNat) :
    ∃ b ∈ String.utf8EncodeChar c, 128 ≤ b := by
  have hlast : UInt8.ofNat (c.val.toNat % 64 + 128) ∈ String.utf8EncodeChar c := by
    have hlead : ¬c.val.toNat ≤ 127 := Nat.not_le_of_lt hc
    unfold String.utf8EncodeChar
    dsimp only
    rw [if_neg hlead]
    split
    . simp
    . split <;> simp
  refine ⟨_, hlast, ?_⟩
  rw [UInt8.le_iff_toNat_le]
  simp
  omega

/-- Among the octets that values may hold, those in ASCII are the visible ones. -/
theorem isVisibleByte_iff {b : UInt8} (hb : Http.isValueByte b = true) :
    Http.isVisibleByte b = true ↔ b < 128 :=
  forall_byte
    (p := fun b => Http.isValueByte b = true → (Http.isVisibleByte b = true ↔ b < 128))
    (by decide +kernel) b hb

theorem charOf_toUInt8 {c : Char} (hc : c.toNat < 256) : charOf c.toNat.toUInt8 = c := by
  unfold charOf
  have hnat : c.toNat.toUInt8.toNat = c.toNat := by simp; omega
  rw [hnat]
  exact c.ofNat_toNat

end Octets

namespace HeaderValue

variable {v : HeaderValue} {s : String}

theorem toText_of_ascii (hv : v.bytes = Utf8.encode s) (hs : IsAscii s) : v.toText = .ok s := by
  rw [encode_of_ascii hs] at hv
  have hvisible : v.bytes.all Http.isVisibleByte = true := by
    rw [List.all_eq_true]
    intro b hb
    rw [isVisibleByte_iff (List.all_eq_true.mp v.valid b hb)]
    rw [hv, List.mem_map] at hb
    obtain ⟨c, hc, rfl⟩ := hb
    have hascii := hs c hc
    rw [UInt8.lt_iff_toNat_lt]
    simp
    omega
  have htext : v.bytes.map charOf = s.toList := by
    rw [hv, List.map_map]
    refine (List.map_congr_left ?_).trans s.toList.map_id
    intro c hc
    have hascii := hs c hc
    exact charOf_toUInt8 (by omega)
  unfold toText
  rw [if_pos hvisible]
  exact congrArg Except.ok ((congrArg String.ofList htext).trans s.ofList_toList)

theorem toText_of_not_ascii (hv : v.bytes = Utf8.encode s) (hs : ¬IsAscii s) :
    v.toText = .error .headerText := by
  obtain ⟨c, hc, hlarge⟩ : ∃ c ∈ s.toList, 128 ≤ c.toNat := by simpa [IsAscii] using hs
  obtain ⟨b, hb, houtside⟩ := exists_mem_utf8EncodeChar hlarge
  have hmem : b ∈ v.bytes := by
    rw [hv]
    exact List.mem_flatMap.mpr ⟨c, hc, hb⟩
  unfold toText
  rw [if_neg]
  intro hall
  have hinside : b < 128 :=
    (isVisibleByte_iff (List.all_eq_true.mp v.valid b hmem)).mp (List.all_eq_true.mp hall b hmem)
  exact absurd houtside (UInt8.not_le.mpr hinside)

theorem bytes_of_ofString (h : ofString s = .ok v) : v.bytes = Utf8.encode s := by
  unfold ofString ofBytes at h
  split at h
  . cases h
    rfl
  . cases h

theorem toText_ofNat (n : Nat) : (ofNat n).toText = .ok (String.ofList (Nat.toDigits 10 n)) := by
  have hascii : IsAscii (String.ofList (Nat.toDigits 10 n)) := by
    intro c hc
    rw [String.toList_ofList] at hc
    have hdigit := Nat.isDigit_of_mem_toDigits (by decide) (by decide) hc
    simp only [Char.isDigit, Bool.and_eq_true, decide_eq_true_eq] at hdigit
    have hle : c.toNat ≤ 57 := UInt32.le_iff_toNat_le.mp hdigit.2
    omega
  apply toText_of_ascii _ hascii
  rw [encode_of_ascii hascii, String.toList_ofList]
  rfl

end HeaderValue

namespace HeaderCodec

variable {name : HeaderName} {s : String} {v : HeaderValue}

theorem bytes_of_writeText {fault : HeaderCodecError} (h : writeText fault s = .ok v) :
    v.bytes = Utf8.encode s := by
  unfold writeText at h
  split at h
  . next heq =>
    cases h
    exact HeaderValue.bytes_of_ofString heq
  . cases h

theorem read_text_of_ascii (h : (text name).write s = .ok v) (hs : IsAscii s) :
    (text name).read v = .ok s := by
  simp only [text, readText, HeaderValue.toText_of_ascii (bytes_of_writeText h) hs]

theorem read_text_of_not_ascii (h : (text name).write s = .ok v) (hs : ¬IsAscii s) :
    (text name).read v = .error (HeaderCodecError.notVisible name).toCauseChain := by
  simp only [text, readText, HeaderValue.toText_of_not_ascii (bytes_of_writeText h) hs]

theorem readNumber_ofNat (fault : NumeralError → HeaderCodecError) (n : UInt64) :
    readNumber fault (.ofNat n.toNat) = .ok n := by
  have htrim : Blank.trim (String.ofList (Nat.toDigits 10 n.toNat))
        =
      String.ofList (Nat.toDigits 10 n.toNat) := by
    unfold Blank.trim
    rw [String.toList_ofList, Blank.trimChars_eq_self]
    intro c hc
    exact Blank.not_isBlank_of_isDigit (Nat.isDigit_of_mem_toDigits (by decide) (by decide) hc)
  simp only [readNumber, HeaderValue.toText_ofNat, htrim, Natural.readWord_toDigits]

end HeaderCodec

namespace HeaderSet

variable {h other : HeaderSet} {name : HeaderName} {value : HeaderValue}

theorem get?_set (h : HeaderSet) (name : HeaderName) (value : HeaderValue) :
    (h.set name value).get? name = some value := by
  rw [get?, getAll_set, if_pos rfl]
  rfl

theorem get?_appendRepeatable (h : HeaderSet) (name : HeaderName) (value : HeaderValue) :
    (h.appendRepeatable name value).get? name = some value := by
  rw [get?, appendRepeatable, getAll_append, if_pos rfl]
  exact List.getLast?_concat

/-- The last value of a set that is laid over another one is the last value of both. -/
theorem get?_merge_of_eq_some (hv : other.get? name = some value) :
    (h.merge other).get? name = some value := by
  rw [get?, getAll_merge]
  split
  . rw [List.getLast?_append]
    exact congrArg (Option.or · _) hv
  . rw [hv]
    rfl

end HeaderSet

namespace Accumulator

variable {α : Type} {a b : Accumulator} {codec : HeaderCodec α} {value : α}
variable {rendered : HeaderValue}

/-- How a response stands after the attempt to write a typed header to it. -/
def afterHeader (a : Accumulator) (codec : HeaderCodec α) (value : α) : Accumulator :=
  match a.addHeader codec value with
  | .ok b => b
  | .error _ => a

/--
Whether this comes of reading a typed header, in a response and in whatever it is laid over, the
innermost first.
-/
def Answers (b : Accumulator) (codec : HeaderCodec α) (result : Except CauseChain (Option α)) :
    Prop :=
  ∀ below : List Accumulator, (below.foldr merge b).header codec = result

theorem get?_foldr_merge {name : HeaderName} (hb : b.headers.get? name = some rendered)
    (below : List Accumulator) : (below.foldr merge b).headers.get? name = some rendered := by
  induction below with
  | nil => exact hb
  | cons a rest ih =>
    rw [List.foldr_cons, headers_merge]
    exact HeaderSet.get?_merge_of_eq_some ih

theorem addHeader_eq_error_iff {e : CauseChain} :
    a.addHeader codec value = .error e ↔ codec.write value = .error e := by
  unfold addHeader
  cases codec.write value <;> simp [Except.map]

theorem exists_addHeader (a : Accumulator) (hw : codec.write value = .ok rendered) :
    ∃ b, a.addHeader codec value = .ok b ∧ b.headers.get? codec.name = some rendered := by
  unfold addHeader
  rw [hw]
  refine ⟨_, rfl, ?_⟩
  dsimp only
  split
  . exact HeaderSet.get?_appendRepeatable _ _ _
  . exact HeaderSet.get?_set _ _ _

/-- What was written last is what is read, even if values of that name add up. -/
theorem answers_of_write (hw : codec.write value = .ok rendered)
    (hb : a.addHeader codec value = .ok b) :
    b.Answers codec ((codec.read rendered).map some) := by
  obtain ⟨b', hb', hget⟩ := exists_addHeader a hw
  rw [hb] at hb'
  cases hb'
  intro below
  unfold header
  rw [get?_foldr_merge hget below]

theorem exists_write_of_addHeader (hb : a.addHeader codec value = .ok b) :
    ∃ rendered, codec.write value = .ok rendered := by
  cases hw : codec.write value with
  | ok rendered => exact ⟨rendered, rfl⟩
  | error e =>
    rw [addHeader_eq_error_iff.mpr hw] at hb
    cases hb

theorem answers_text_of_ascii {name : HeaderName} {s : String}
    (hb : a.addHeader (.text name) s = .ok b) (hs : IsAscii s) :
    b.Answers (.text name) (.ok (some s)) := by
  obtain ⟨rendered, hw⟩ := exists_write_of_addHeader hb
  have hanswers := answers_of_write hw hb
  rw [HeaderCodec.read_text_of_ascii hw hs] at hanswers
  exact hanswers

theorem answers_text_of_not_ascii {name : HeaderName} {s : String}
    (hb : a.addHeader (.text name) s = .ok b) (hs : ¬IsAscii s) :
    b.Answers (.text name) (.error (HeaderCodecError.notVisible name).toCauseChain) := by
  obtain ⟨rendered, hw⟩ := exists_write_of_addHeader hb
  have hanswers := answers_of_write hw hb
  rw [HeaderCodec.read_text_of_not_ascii hw hs] at hanswers
  exact hanswers

theorem answers_contentLength (a : Accumulator) (n : UInt64) :
    ∃ b, a.addHeader .contentLength n = .ok b ∧ b.Answers .contentLength (.ok (some n)) := by
  have hw : HeaderCodec.contentLength.write n = .ok (.ofNat n.toNat) := rfl
  obtain ⟨b, hb, -⟩ := exists_addHeader a hw
  have hanswers := answers_of_write hw hb
  have hread : HeaderCodec.contentLength.read (.ofNat n.toNat) = .ok n :=
    HeaderCodec.readNumber_ofNat _ n
  rw [hread] at hanswers
  exact ⟨b, hb, hanswers⟩

theorem answers_retryAfter (a : Accumulator) (d : Duration) :
    ∃ b, a.addHeader .retryAfter d = .ok b ∧
      b.Answers .retryAfter (.ok (some (.ofSeconds d.seconds))) := by
  have hw : HeaderCodec.retryAfter.write d = .ok (.ofNat d.seconds.toNat) := rfl
  obtain ⟨b, hb, -⟩ := exists_addHeader a hw
  have hanswers := answers_of_write hw hb
  have hread : HeaderCodec.retryAfter.read (.ofNat d.seconds.toNat)
      = .ok (.ofSeconds d.seconds) := by
    simp only [HeaderCodec.retryAfter, HeaderCodec.readNumber_ofNat]
    rfl
  rw [hread] at hanswers
  exact ⟨b, hb, hanswers⟩

/--
What was written as a typed header is read back, from the response and from whatever it is laid
over: a length as it was, a span of time in whole seconds, and a text exactly if it is of ASCII. All
other texts that can be written are refused when they are read. A value is refused when its codec
refuses it, and leaves the response as it was.
-/
theorem typed_headers_read_back (a : Accumulator) :
    (∀ (name : HeaderName) (s : String) (b : Accumulator), a.addHeader (.text name) s = .ok b →
      (b.Answers (.text name) (.ok (some s)) ↔ IsAscii s) ∧
      (¬IsAscii s →
        b.Answers (.text name) (.error (HeaderCodecError.notVisible name).toCauseChain))) ∧
    (∀ n : UInt64, ∃ b, a.addHeader .contentLength n = .ok b ∧
      b.Answers .contentLength (.ok (some n))) ∧
    (∀ d : Duration, ∃ b, a.addHeader .retryAfter d = .ok b ∧
      b.Answers .retryAfter (.ok (some (.ofSeconds d.seconds)))) ∧
    (∀ {α : Type} (codec : HeaderCodec α) (value : α) (e : CauseChain),
      (a.addHeader codec value = .error e ↔ codec.write value = .error e) ∧
      (a.addHeader codec value = .error e → a.afterHeader codec value = a)) := by
  refine ⟨?_, answers_contentLength a, answers_retryAfter a, ?_⟩
  . intro name s b hb
    refine ⟨⟨?_, answers_text_of_ascii hb⟩, answers_text_of_not_ascii hb⟩
    intro hread
    by_contra hs
    have hrefused := answers_text_of_not_ascii hb hs []
    rw [hread []] at hrefused
    cases hrefused
  . intro α codec value e
    refine ⟨addHeader_eq_error_iff, ?_⟩
    intro he
    unfold afterHeader
    rw [he]

/-- Where tags add up, it is the one written last that is read back, merged or not. -/
theorem read_back_of_repeating :
    ∃ b, repeating.addHeader (.text tag) "b" = .ok b ∧
      (b.header (.text tag)) = .ok (some "b") ∧
      ((tagged 1).merge (repeating.merge b)).header (.text tag) = .ok (some "b") := by
  have hread := ((typed_headers_read_back repeating).1 tag "b" _ rfl).1.mpr (by decide)
  exact ⟨_, rfl, hread [], hread [tagged 1, repeating]⟩

/-- An accent can be written, but what was written is not visible ASCII and cannot be read. -/
theorem not_read_back_of_accent :
    ∃ b, Accumulator.empty.addHeader (.text tag) "\u00E9" = .ok b ∧
      b.header (.text tag) ≠ .ok (some "\u00E9") :=
  ⟨_, rfl, nofun⟩

end Accumulator
end PageDispatch
