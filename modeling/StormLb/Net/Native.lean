import StormLb.Net.Bytes

/-!
# Bytes in native order

The numbers of kernel interfaces are in the byte order of the machine, whichever
that is.
-/

namespace StormLb.Net

/-- The byte order of a machine. -/
inductive Endian where
  | little
  | big
  deriving DecidableEq, Repr

namespace Endian

variable (e : Endian)

/-- Bytes given in network order, in this order. -/
def order (bytes : List UInt8) : List UInt8 :=
  match e with
  | .little => bytes.reverse
  | .big => bytes

/-- `u16::to_ne_bytes`. -/
def toNeBytes16 (n : UInt16) : List UInt8 :=
  e.order (toBeBytes n)

/-- `u16::from_ne_bytes`. -/
def fromNeBytes16 (a b : UInt8) : UInt16 :=
  match e with
  | .little => fromBeBytes b a
  | .big => fromBeBytes a b

/-- `u32::to_ne_bytes`. -/
def toNeBytes32 (n : UInt32) : List UInt8 :=
  e.order (toBeBytes (n / 65536).toUInt16 ++ toBeBytes n.toUInt16)

/-- `u32::from_ne_bytes`. -/
def fromNeBytes32 (a b c d : UInt8) : UInt32 :=
  match e with
  | .little => (fromBeBytes d c).toUInt32 * 65536 + (fromBeBytes b a).toUInt32
  | .big => (fromBeBytes a b).toUInt32 * 65536 + (fromBeBytes c d).toUInt32

@[simp] theorem toNeBytes16_length (n : UInt16) : (e.toNeBytes16 n).length = 2 := by
  cases e <;> rfl

@[simp] theorem toNeBytes32_length (n : UInt32) : (e.toNeBytes32 n).length = 4 := by
  cases e <;> rfl

/-- The two bytes of a number read back as that number. -/
theorem fromNeBytes16_toNeBytes16 (n : UInt16) :
    ∃ a b, e.toNeBytes16 n = [a, b] ∧ e.fromNeBytes16 a b = n := by
  cases e with
  | little => exact ⟨_, _, rfl, fromBeBytes_toBeBytes n⟩
  | big => exact ⟨_, _, rfl, fromBeBytes_toBeBytes n⟩

theorem halves (n : UInt32) :
    (n / 65536).toUInt16.toUInt32 * 65536 + n.toUInt16.toUInt32 = n := by
  have bound := n.toNat_lt
  rw [← UInt32.toNat_inj]
  simp only [UInt32.toNat_add, UInt32.toNat_mul, UInt16.toNat_toUInt32, UInt32.toNat_toUInt16,
    UInt32.toNat_div, UInt32.reduceToNat]
  omega

theorem fromNeBytes32_toNeBytes32 (n : UInt32) :
    ∃ a b c d, e.toNeBytes32 n = [a, b, c, d] ∧ e.fromNeBytes32 a b c d = n := by
  have high := fromBeBytes_toBeBytes (n / 65536).toUInt16
  have low := fromBeBytes_toBeBytes n.toUInt16
  have whole := halves n
  rw [← high, ← low] at whole
  cases e with
  | little => exact ⟨_, _, _, _, rfl, whole⟩
  | big => exact ⟨_, _, _, _, rfl, whole⟩

end Endian

end StormLb.Net
