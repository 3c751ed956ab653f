import PageDispatch.Accumulator
import PageDispatch.Proofs.Response.Headers

/-!
This module contains which responses close their connection: those that are made to, and those of
accumulators whose last word about the connection is to close it, in any letter case.
-/

namespace PageDispatch

/-- The lower case of an octet: that of its letter if it is one of ASCII, or the octet itself. -/
def lowerByte (b : UInt8) : UInt8 := if 65 ≤ b && b ≤ 90 then b + 32 else b

/-- Whether a value is the word that closes connections, in any letter case. -/
def HeaderValue.SaysClose (v : HeaderValue) : Prop := v.bytes.map lowerByte = Response.close.bytes

section Letters

/-- The character that an octet stands for by itself. -/
def charOf (b : UInt8) : Char := Char.ofNat b.toNat

theorem forall_byte {p : UInt8 → Prop} (h : ∀ n < 256, p (.ofNat n)) (b : UInt8) : p b := by
  have hb := h b.toNat b.toNat_lt
  rwa [UInt8.ofNat_toNat] at hb

theorem toLower_charOf (b : UInt8) : (charOf b).toLower = charOf (lowerByte b) :=
  forall_byte (p := fun b => (charOf b).toLower = charOf (lowerByte b)) (by decide +kernel) b

theorem toNat_charOf (b : UInt8) : (charOf b).toNat = b.toNat :=
  forall_byte (p := fun b => (charOf b).toNat = b.toNat) (by decide +kernel) b

theorem charOf_injective : Function.Injective charOf := by
  intro a b h
  apply UInt8.toNat_inj.mp
  rw [← toNat_charOf a, ← toNat_charOf b, h]

theorem isVisibleByte_of_lowerByte {b : UInt8} (h : lowerByte b ∈ Response.close.bytes) :
    Http.isVisibleByte b = true :=
  forall_byte (p := fun b => lowerByte b ∈ Response.close.bytes → Http.isVisibleByte b = true)
    (by decide +kernel) b h

end Letters

namespace HeaderValue

variable {v : HeaderValue}

theorem toText_of_saysClose (h : v.SaysClose) :
    v.toText = .ok (String.ofList (v.bytes.map charOf)) := by
  have hvisible : v.bytes.all Http.isVisibleByte = true := by
    apply List.all_eq_true.mpr
    intro b hb
    apply isVisibleByte_of_lowerByte
    rw [← h]
    exact List.mem_map_of_mem hb
  unfold toText
  rw [if_pos hvisible]
  rfl

theorem lowerAscii_eq_close_iff :
    Lowercase.lowerAscii (String.ofList (v.bytes.map charOf)) = "close" ↔ v.SaysClose := by
  have hword : "close" = String.ofList (Response.close.bytes.map charOf) := by decide +kernel
  have hlower : (v.bytes.map charOf).map Char.toLower = (v.bytes.map lowerByte).map charOf := by
    rw [List.map_map, List.map_map]
    apply List.map_congr_left
    intro b _
    exact toLower_charOf b
  unfold Lowercase.lowerAscii SaysClose
  rw [String.toList_ofList, hlower, hword, String.ofList_inj]
  exact List.map_inj_right charOf_injective

end HeaderValue

namespace Accumulator

/-- What units wrote closes the connection if its last value for the connection says so. -/
theorem closesConnection_iff (a : Accumulator) : a.closesConnection = true ↔
    ∃ v, (a.headers.getAll .connection).getLast? = some v ∧ v.SaysClose := by
  unfold closesConnection HeaderSet.get?
  cases (a.headers.getAll .connection).getLast? with
  | none => simp
  | some v =>
    simp only [Option.map_some, Option.some.injEq, exists_eq_left']
    constructor
    . intro h
      unfold HeaderValue.toText at h
      split at h
      . next text heq =>
        injection heq with heq
        split at heq
        . cases heq
          exact HeaderValue.lowerAscii_eq_close_iff.mp (beq_iff_eq.mp h)
        . cases heq
      . cases h
    . intro h
      rw [HeaderValue.toText_of_saysClose h]
      exact beq_iff_eq.mpr (HeaderValue.lowerAscii_eq_close_iff.mpr h)

end Accumulator

namespace Response

variable (r : Response)

/-- Whatever a response says about the connection, once it is made to close it says that only. -/
theorem getAll_closing : r.closing.headers.getAll .connection = [close] := by
  unfold closing
  rw [HeaderSet.getAll_set, if_pos rfl]

/-- The last resort closes the connection as it is. -/
theorem closing_minimalError : minimalError.closing = minimalError := rfl

end Response
end PageDispatch
