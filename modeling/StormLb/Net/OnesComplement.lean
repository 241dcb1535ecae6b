import Mathlib.Algebra.Group.Nat.Defs
import Mathlib.Data.List.GetD

/-!
# One's-complement sums

The sum of a byte string's big-endian 16-bit words, and the number of 16 bits
that adding its carries back leaves of it.  Adding the complement of that number
to the sum makes the whole fold to all ones.
-/

namespace StormLb.Net

/-- The sum of the 16-bit words, an odd last byte counting as a high byte. -/
def wordSum : List UInt8 → Nat
  | [] => 0
  | [last] => last.toNat * 256
  | high :: low :: rest => high.toNat * 256 + low.toNat + wordSum rest

/-- What is left of a sum once all its carries were added back. -/
def folded (sum : Nat) : Nat :=
  if sum = 0 then 0 else (sum - 1) % 65535 + 1

/-! ## The sum -/

theorem wordSum_le (bytes : List UInt8) : wordSum bytes ≤ 65535 * bytes.length := by
  fun_induction wordSum bytes with
  | case1 => simp
  | case2 last =>
      have bound := last.toNat_lt
      simp only [List.length_singleton]
      omega
  | case3 high low rest ih =>
      have highBound := high.toNat_lt
      have lowBound := low.toNat_lt
      simp only [List.length_cons]
      omega

/-- Words do not reach across an even number of bytes. -/
theorem wordSum_append {front : List UInt8} (even : front.length % 2 = 0) (back : List UInt8) :
    wordSum (front ++ back) = wordSum front + wordSum back := by
  fun_induction wordSum front with
  | case1 => simp
  | case2 last => simp at even
  | case3 high low rest ih =>
      have evenRest : rest.length % 2 = 0 := by
        simp only [List.length_cons] at even
        omega
      simp only [List.cons_append, wordSum, ih evenRest]
      omega

/-! ## The carries -/

theorem folded_eq_self {sum : Nat} (small : sum < 65536) : folded sum = sum := by
  unfold folded
  split
  · omega
  · rw [Nat.mod_eq_of_lt (by omega)]
    omega

/-- Adding the carries to the low 16 bits leaves what is left unchanged. -/
theorem folded_carry (sum : Nat) : folded (sum % 65536 + sum / 65536) = folded sum := by
  unfold folded
  by_cases zero : sum = 0
  · simp [zero]
  · have nonzero : sum % 65536 + sum / 65536 ≠ 0 := by omega
    rw [if_neg zero, if_neg nonzero]
    have split : sum - 1 = sum % 65536 + sum / 65536 - 1 + 65535 * (sum / 65536) := by omega
    rw [split, Nat.add_mul_mod_self_left]

theorem folded_le (sum : Nat) : folded sum ≤ 65535 := by
  unfold folded
  split
  · omega
  · omega

/-- The law of the checksum: with the complement of what is left, all ones are left. -/
theorem folded_add_complement (sum : Nat) : folded (sum + (65535 - folded sum)) = 65535 := by
  by_cases zero : sum = 0
  · subst zero
    rfl
  · have left : folded sum = (sum - 1) % 65535 + 1 := by rw [folded, if_neg zero]
    have whole : sum + (65535 - folded sum) = 65534 + 65535 * ((sum - 1) / 65535) + 1 := by
      rw [left]
      omega
    rw [whole, folded, if_neg (by omega), Nat.add_sub_cancel, Nat.add_mul_mod_self_left]

/-- All ones are left of the multiples of 65535 above zero. -/
theorem folded_eq_max_iff {sum : Nat} : folded sum = 65535 ↔ sum ≠ 0 ∧ sum % 65535 = 0 := by
  unfold folded
  split
  · omega
  · omega

/-! ## A flipped bit -/

/-- The byte with one bit flipped, the lowest being bit 0. -/
def flipBit (bit : Nat) (byte : UInt8) : UInt8 :=
  byte ^^^ UInt8.ofNat (2 ^ bit)

/-- Flipping a bit adds its weight or takes it away. -/
theorem flipBit_toNat {bit : Nat} (inside : bit < 8) (byte : UInt8) :
    (flipBit bit byte).toNat = byte.toNat + 2 ^ bit ∨
      (flipBit bit byte).toNat + 2 ^ bit = byte.toNat := by
  have all : ∀ (bit : Fin 8) (byte : Fin 256),
      byte.val ^^^ 2 ^ bit.val = byte.val + 2 ^ bit.val ∨
        (byte.val ^^^ 2 ^ bit.val) + 2 ^ bit.val = byte.val := by decide +kernel
  have weight : 2 ^ bit < 256 := Nat.pow_lt_pow_right (by decide) inside
  have flipped : (flipBit bit byte).toNat = byte.toNat ^^^ 2 ^ bit := by
    rw [flipBit, UInt8.toNat_xor, UInt8.toNat_ofNat_of_lt' weight]
  rw [flipped]
  exact all ⟨bit, inside⟩ ⟨byte.toNat, byte.toNat_lt⟩

/-- A byte in an even place is the high byte of its word. -/
def weightAt (index : Nat) : Nat :=
  if index % 2 = 0 then 256 else 1

theorem weightAt_cases (index : Nat) : weightAt index = 256 ∨ weightAt index = 1 := by
  unfold weightAt
  split
  · exact .inl rfl
  · exact .inr rfl

theorem weightAt_add_two (index : Nat) : weightAt (index + 2) = weightAt index := by
  rw [weightAt, weightAt, Nat.add_mod_right]

/-- Another byte in one place changes the sum by its own share. -/
theorem wordSum_set {bytes : List UInt8} {index : Nat} (inside : index < bytes.length)
    (byte : UInt8) :
    wordSum (bytes.set index byte) + weightAt index * bytes[index].toNat =
      wordSum bytes + weightAt index * byte.toNat := by
  have even : weightAt 0 = 256 := rfl
  have odd : weightAt 1 = 1 := rfl
  fun_induction wordSum bytes generalizing index with
  | case1 => simp at inside
  | case2 last =>
      obtain rfl : index = 0 := by simpa using inside
      simp only [List.set_cons_zero, List.getElem_cons_zero, wordSum, even]
      omega
  | case3 high low rest ih =>
      match index, inside with
      | 0, _ =>
          simp only [List.set_cons_zero, List.getElem_cons_zero, wordSum, even]
          omega
      | 1, _ =>
          simp only [List.set_cons_succ, List.set_cons_zero, List.getElem_cons_succ,
            List.getElem_cons_zero, wordSum, odd]
          omega
      | index + 2, inside =>
          have step := @ih index (by simpa using inside)
          simp only [List.set_cons_succ, List.getElem_cons_succ, wordSum, weightAt_add_two]
          omega

/-- The bytes with one bit of one of them flipped. -/
def flipAt (index bit : Nat) (bytes : List UInt8) : List UInt8 :=
  bytes.set index (flipBit bit (bytes.getD index 0))

@[simp] theorem flipAt_length (index bit : Nat) (bytes : List UInt8) :
    (flipAt index bit bytes).length = bytes.length :=
  List.length_set

theorem getD_flipAt {bytes : List UInt8} {index : Nat} (inside : index < bytes.length)
    (bit other : Nat) :
    (flipAt index bit bytes).getD other 0 =
      if other = index then flipBit bit (bytes.getD other 0) else bytes.getD other 0 := by
  rw [flipAt, List.getD_eq_getElem?_getD, List.getElem?_set]
  split
  · rename_i same
    subst same
    simp [inside]
  · rename_i apart
    rw [if_neg (Ne.symm apart), List.getD_eq_getElem?_getD]

theorem flipAt_append_left {front : List UInt8} {index : Nat} (inside : index < front.length)
    (bit : Nat) (back : List UInt8) :
    flipAt index bit (front ++ back) = flipAt index bit front ++ back := by
  rw [flipAt, List.set_append_left _ _ inside, List.getD_append _ _ _ _ inside, flipAt]

theorem flipAt_append_right {front : List UInt8} {index : Nat} (behind : front.length ≤ index)
    (bit : Nat) (back : List UInt8) :
    flipAt index bit (front ++ back) = front ++ flipAt (index - front.length) bit back := by
  rw [flipAt, List.set_append_right _ _ behind, List.getD_append_right _ _ _ _ behind, flipAt]

/--
When all ones are left of a sum, they are not after one bit was flipped: the sum
changed by a power of two below 65535.
-/
theorem folded_flipAt_ne {bytes : List UInt8} {index bit : Nat} (inside : index < bytes.length)
    (low : bit < 8) (whole : folded (wordSum bytes) = 65535) :
    folded (wordSum (flipAt index bit bytes)) ≠ 65535 := by
  have byte : bytes.getD index 0 = bytes[index] := by simp [inside]
  have share := wordSum_set inside (flipBit bit bytes[index])
  have least : 1 ≤ 2 ^ bit := Nat.one_le_two_pow
  have most : 2 ^ bit ≤ 128 := Nat.pow_le_pow_right (by decide) (by omega : bit ≤ 7)
  rw [folded_eq_max_iff] at whole
  rw [Ne, folded_eq_max_iff, flipAt, byte]
  generalize wordSum (bytes.set index (flipBit bit bytes[index])) = after at *
  generalize wordSum bytes = before at *
  rcases flipBit_toNat low bytes[index] with more | less
  · rw [more] at share
    rcases weightAt_cases index with high | low
    · rw [high] at share
      omega
    · rw [low] at share
      omega
  · rw [← less] at share
    rcases weightAt_cases index with high | low
    · rw [high] at share
      omega
    · rw [low] at share
      omega

end StormLb.Net
