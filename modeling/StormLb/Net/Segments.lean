import Mathlib.Data.List.Basic

/-!
# Streams that arrive in segments

A finite stream cut into the pieces in which it arrives.  A read returns at most
so many items, and none from the next piece; what is read altogether does not
depend on the cuts.
-/

namespace StormLb.Net

/-- A stream in the pieces in which it arrives, none of them empty. -/
structure Segments (α : Type) where
  parts : List (List α)
  nonempty : ∀ part ∈ parts, part ≠ []

namespace Segments

variable {α : Type}

/-- The stream, whatever its pieces. -/
def items (s : Segments α) : List α :=
  s.parts.flatten

/-- At most `max` items of the next piece, and what is left; nothing at the end of the stream. -/
def read (max : Nat) : Segments α → List α × Segments α
  | ⟨[], nonempty⟩ => ([], ⟨[], nonempty⟩)
  | ⟨part :: rest, nonempty⟩ =>
      if more : max < part.length then
        (part.take max,
          ⟨part.drop max :: rest, fun other member => by
            rcases List.mem_cons.mp member with rfl | later
            · exact List.drop_eq_nil_iff.not.mpr (Nat.not_le.mpr more)
            · exact nonempty other (List.mem_cons_of_mem _ later)⟩)
      else (part, ⟨rest, fun other member => nonempty other (List.mem_cons_of_mem _ member)⟩)

/-- A read takes the first of the stream's items. -/
theorem read_append (max : Nat) (s : Segments α) :
    (s.read max).1 ++ (s.read max).2.items = s.items := by
  obtain ⟨parts, nonempty⟩ := s
  cases parts with
  | nil => rfl
  | cons part rest =>
      simp only [read]
      split
      · simp only [items, List.flatten_cons, ← List.append_assoc, List.take_append_drop]
      · rfl

theorem read_length_le (max : Nat) (s : Segments α) : (s.read max).1.length ≤ max := by
  obtain ⟨parts, nonempty⟩ := s
  cases parts with
  | nil => exact Nat.zero_le _
  | cons part rest =>
      simp only [read]
      split
      · exact List.length_take_le max part
      · rename_i whole
        exact Nat.not_lt.mp whole

/-- A read returns nothing only at the end of the stream. -/
theorem read_eq_nil_iff {max : Nat} (positive : 0 < max) (s : Segments α) :
    (s.read max).1 = [] ↔ s.items = [] := by
  constructor
  · intro none
    obtain ⟨parts, nonempty⟩ := s
    cases parts with
    | nil => rfl
    | cons part rest =>
        have here := nonempty part List.mem_cons_self
        simp only [read] at none
        split at none
        · rcases List.take_eq_nil_iff.mp none with zero | empty
          · exact absurd zero (Nat.pos_iff_ne_zero.mp positive)
          · exact absurd empty here
        · exact absurd none here
  · intro ended
    have whole := s.read_append max
    rw [ended] at whole
    exact (List.append_eq_nil_iff.mp whole).1

/-- Reads until there are `n` items or the stream ends. -/
def fill : Nat → Nat → Segments α → List α × Segments α
  | 0, _, s => ([], s)
  | fuel + 1, n, s =>
      if n = 0 then ([], s)
      else
        let (chunk, rest) := s.read n
        if chunk.length = 0 then ([], rest)
        else
          let (more, left) := fill fuel (n - chunk.length) rest
          (chunk ++ more, left)

/-- `n` items, unless the stream ends before. -/
def readExact (n : Nat) (s : Segments α) : Option (List α × Segments α) :=
  let (got, left) := s.fill n n
  if got.length = n then some (got, left) else none

/-- As many reads as items suffice. -/
theorem fill_eq {fuel n : Nat} (enough : n ≤ fuel) (s : Segments α) :
    (s.fill fuel n).1 = s.items.take n ∧ (s.fill fuel n).2.items = s.items.drop n := by
  induction fuel generalizing n s with
  | zero =>
      obtain rfl := Nat.le_zero.mp enough
      exact ⟨rfl, rfl⟩
  | succ fuel ih =>
      unfold fill
      split
      · rename_i zero
        exact ⟨by rw [zero, List.take_zero], by rw [zero, List.drop_zero]⟩
      · rename_i positive
        have whole := s.read_append n
        have short := s.read_length_le n
        dsimp only
        split
        · rename_i none
          have ended := (read_eq_nil_iff (Nat.pos_of_ne_zero positive) s).mp
            (List.length_eq_zero_iff.mp none)
          rw [List.length_eq_zero_iff.mp none, List.nil_append] at whole
          exact ⟨by rw [ended, List.take_nil], by rw [whole, ended, List.drop_nil]⟩
        · rename_i some
          obtain ⟨taken, left⟩ := ih (n := n - (s.read n).1.length) (by omega) (s.read n).2
          constructor
          · rw [taken, ← whole, List.take_append, List.take_of_length_le short]
          · rw [left, ← whole, List.drop_append, List.drop_of_length_le short, List.nil_append]

theorem readExact_eq_none {n : Nat} {s : Segments α} (short : s.items.length < n) :
    s.readExact n = none := by
  unfold readExact
  dsimp only
  rw [(fill_eq (Nat.le_refl n) s).1, if_neg]
  rw [List.length_take]
  omega

theorem readExact_eq_some {n : Nat} {s : Segments α} (enough : n ≤ s.items.length) :
    ∃ left, s.readExact n = some (s.items.take n, left) ∧ left.items = s.items.drop n := by
  obtain ⟨taken, left⟩ := fill_eq (Nat.le_refl n) s
  refine ⟨(s.fill n n).2, ?_, left⟩
  unfold readExact
  dsimp only
  rw [taken, if_pos (List.length_take_of_le enough)]

end Segments

end StormLb.Net
