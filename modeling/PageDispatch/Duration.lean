/-!
This module contains spans of time.
-/

namespace PageDispatch

/--
A span of time in whole milliseconds; its whole seconds fit a 64-bit word. Parts of a millisecond
are not represented, so there is no span between nothing and one millisecond.
-/
structure Duration where
  milliseconds : Nat
  bounded : milliseconds < 1000 * UInt64.size
  deriving DecidableEq, Repr

namespace Duration

def ofMilliseconds (n : UInt64) : Duration :=
  ⟨n.toNat, by have := n.toNat_lt; unfold UInt64.size; omega⟩

def ofSeconds (n : UInt64) : Duration :=
  ⟨1000 * n.toNat, by have := n.toNat_lt; unfold UInt64.size; omega⟩

def seconds (d : Duration) : UInt64 := (d.milliseconds / 1000).toUInt64

theorem toNat_seconds (d : Duration) : d.seconds.toNat = d.milliseconds / 1000 := by
  have := d.bounded
  unfold UInt64.size at this
  simp [seconds]
  omega

end Duration
end PageDispatch
