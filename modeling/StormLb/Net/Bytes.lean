import Mathlib.Algebra.Group.Nat.Defs

/-!
# Bytes in network order

The 16-bit numbers of wire formats, most significant byte first.
-/

namespace StormLb.Net

/-- `u16::to_be_bytes`. -/
def toBeBytes (n : UInt16) : List UInt8 :=
  [(n / 256).toUInt8, n.toUInt8]

/-- `u16::from_be_bytes`. -/
def fromBeBytes (high low : UInt8) : UInt16 :=
  high.toUInt16 * 256 + low.toUInt16

@[simp] theorem toBeBytes_length (n : UInt16) : (toBeBytes n).length = 2 :=
  rfl

theorem fromBeBytes_toNat (high low : UInt8) :
    (fromBeBytes high low).toNat = high.toNat * 256 + low.toNat := by
  have highBound := high.toNat_lt
  have lowBound := low.toNat_lt
  simp only [fromBeBytes, UInt16.toNat_add, UInt16.toNat_mul, UInt8.toNat_toUInt16,
    UInt16.reduceToNat]
  omega

theorem fromBeBytes_toBeBytes (n : UInt16) :
    fromBeBytes ((toBeBytes n).getD 0 0) ((toBeBytes n).getD 1 0) = n := by
  have bound := n.toNat_lt
  rw [← UInt16.toNat_inj, fromBeBytes_toNat]
  simp only [toBeBytes, List.getD_cons_zero, List.getD_cons_succ, UInt16.toNat_toUInt8,
    UInt16.toNat_div, UInt16.reduceToNat]
  omega

end StormLb.Net
