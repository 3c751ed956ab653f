import PageDispatch.Http.Token
import PageDispatch.Text.Utf8

/-!
This module contains header values: octets without controls, of which those in visible ASCII can be
read as text.
-/

namespace PageDispatch

namespace Http

/-- Octets that a header value may hold: tabs and everything from the space up but for DEL. -/
def isValueByte (b : UInt8) : Bool :=
  (32 ≤ b && b != 127) || b == 9

def isVisibleByte (b : UInt8) : Bool :=
  (32 ≤ b && b < 127) || b == 9

end Http

structure HeaderValue where
  bytes : Bytes
  valid : bytes.all Http.isValueByte = true
  deriving DecidableEq, Repr

namespace HeaderValue

def ofBytes (bytes : Bytes) : Except Http.Malformed HeaderValue :=
  if h : bytes.all Http.isValueByte = true then .ok ⟨bytes, h⟩ else .error .headerValue

def ofString (s : String) : Except Http.Malformed HeaderValue :=
  ofBytes (Utf8.encode s)

def toText (v : HeaderValue) : Except Http.Malformed String :=
  if v.bytes.all Http.isVisibleByte then
    .ok (String.ofList (v.bytes.map fun b => Char.ofNat b.toNat))
  else .error .headerText

def digitBytes (n : Nat) : Bytes :=
  (Nat.toDigits 10 n).map fun c => c.toNat.toUInt8

theorem isValueByte_of_isDigit {c : Char} (h : c.isDigit = true) :
    Http.isValueByte c.toNat.toUInt8 = true := by
  simp only [Char.isDigit, Bool.and_eq_true, decide_eq_true_eq] at h
  have hc : 48 ≤ c.toNat ∧ c.toNat ≤ 57 :=
    ⟨UInt32.le_iff_toNat_le.mp h.1, UInt32.le_iff_toNat_le.mp h.2⟩
  obtain ⟨n, hn⟩ : ∃ n, c.toNat = n := ⟨_, rfl⟩
  rw [hn] at hc ⊢
  have : n = 48 ∨ n = 49 ∨ n = 50 ∨ n = 51 ∨ n = 52 ∨ n = 53 ∨ n = 54 ∨ n = 55 ∨ n = 56 ∨ n = 57 := by
    omega
  rcases this with h | h | h | h | h | h | h | h | h | h <;> subst h <;> decide

def ofNat (n : Nat) : HeaderValue :=
  ⟨digitBytes n, by
    simp only [digitBytes, List.all_map, List.all_eq_true]
    intro c hc
    exact isValueByte_of_isDigit (Nat.isDigit_of_mem_toDigits (by decide) (by decide) hc)⟩

end HeaderValue
end PageDispatch
