import StormLb.Checked
import StormLb.Net.Native

/-!
# Numbers and lengths of netlink

Numbers are in native byte order, and every message and attribute starts at a
multiple of four bytes.
-/

namespace StormLb.Netlink

open StormLb.Net StormLb.Checked

/-- Up to the next multiple of four. -/
def align (n : Nat) : Nat :=
  (n + 3) / 4 * 4

theorem le_align (n : Nat) : n ≤ align n := by
  unfold align
  omega

section

variable (e : Endian)

def u16At (b : List UInt8) (i : Nat) : Except Fault UInt16 := do
  return e.fromNeBytes16 (← index b i) (← index b (i + 1))

def u32At (b : List UInt8) (i : Nat) : Except Fault UInt32 := do
  return e.fromNeBytes32 (← index b i) (← index b (i + 1)) (← index b (i + 2)) (← index b (i + 3))

/-! ## Inside the buffer -/

theorem u16At_ok {b : List UInt8} {i : Nat} (inside : i + 2 ≤ b.length) :
    ∃ n, u16At e b i = .ok n := by
  rw [u16At, index_ok (by omega), index_ok (by omega)]
  exact ⟨_, rfl⟩

theorem u32At_ok {b : List UInt8} {i : Nat} (inside : i + 4 ≤ b.length) :
    ∃ n, u32At e b i = .ok n := by
  rw [u32At, index_ok (by omega), index_ok (by omega), index_ok (by omega), index_ok (by omega)]
  exact ⟨_, rfl⟩

/-! ## Reading what was written -/

@[simp] theorem u16At_toNeBytes16 (n : UInt16) (rest : List UInt8) :
    u16At e (e.toNeBytes16 n ++ rest) 0 = .ok n := by
  obtain ⟨a, b, bytes, same⟩ := e.fromNeBytes16_toNeBytes16 n
  rw [bytes, ← same]
  rfl

@[simp] theorem u32At_toNeBytes32 (n : UInt32) (rest : List UInt8) :
    u32At e (e.toNeBytes32 n ++ rest) 0 = .ok n := by
  obtain ⟨a, b, c, d, bytes, same⟩ := e.fromNeBytes32_toNeBytes32 n
  rw [bytes, ← same]
  rfl

theorem u16At_append (front b : List UInt8) (i : Nat) :
    u16At e (front ++ b) (front.length + i) = u16At e b i := by
  simp only [u16At, Nat.add_assoc, index_append]

theorem u32At_append (front b : List UInt8) (i : Nat) :
    u32At e (front ++ b) (front.length + i) = u32At e b i := by
  simp only [u32At, Nat.add_assoc, index_append]

end

end StormLb.Netlink
