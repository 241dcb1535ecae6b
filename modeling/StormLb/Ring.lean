import Mathlib.Data.List.Nodup
import Mathlib.Data.List.Perm.Subperm
import Mathlib.Data.Nat.ModEq

/-!
# Scanning a ring from a counter

The slots `0, …, n - 1` are looked at one by one, starting where a counter of
`w` values stands.  Where the counter runs past its last value in the middle of
a scan, the slot jumps to zero.
-/

namespace StormLb.Ring

/-- The `i`th slot that the scan from `c` looks at. -/
def slot (w n c i : Nat) : Nat :=
  (c + i) % w % n

/-- How many slots after that of `c` the slot `j` comes. -/
def turn (n c j : Nat) : Nat :=
  (j + n - c % n) % n

/--
The scan from `c` comes to `j`: before the counter wraps, or after it, where the
scan goes on from zero.
-/
def Visits (w n c j : Nat) : Prop :=
  j < w ∧ (c + turn n c j < w ∨ w + j < c + n)

/-- The first slot of the scan with the property. -/
def first (p : Nat → Bool) (w n c : Nat) : Option Nat :=
  ((List.range n).map (slot w n c)).find? p

variable {w n c j m : Nat} {p : Nat → Bool}

/-! ## Where the scan comes -/

theorem slot_lt (pos : 0 < n) (i : Nat) : slot w n c i < n :=
  Nat.mod_lt _ pos

/-- The next scan looks at the same slots, one step earlier. -/
theorem slot_succ (w n c i : Nat) : slot w n c (i + 1) = slot w n (c + 1) i := by
  simp only [slot, Nat.add_assoc, Nat.add_comm 1]

theorem slot_of_lt {i : Nat} (below : c + i < w) : slot w n c i = (c + i) % n := by
  rw [slot, Nat.mod_eq_of_lt below]

theorem turn_lt (pos : 0 < n) : turn n c j < n :=
  Nat.mod_lt _ pos

theorem add_turn_mod (below : j < n) : (c + turn n c j) % n = j := by
  have least : c % n < n := Nat.mod_lt _ (Nat.zero_lt_of_lt below)
  calc (c + turn n c j) % n
      = (c % n + (j + n - c % n)) % n := by rw [turn, Nat.add_mod, Nat.mod_mod, ← Nat.add_mod, Nat.mod_add_mod]
    _ = (j + n) % n := by rw [show c % n + (j + n - c % n) = j + n by omega]
    _ = j := by rw [Nat.add_mod_right, Nat.mod_eq_of_lt below]

/-- No two of `n` consecutive numbers have one slot. -/
theorem eq_of_add_mod {i k : Nat} (few : i < n) (most : k < n)
    (same : (c + i) % n = (c + k) % n) : i = k := by
  have parted : i % n = k % n := Nat.ModEq.add_left_cancel' c same
  rwa [Nat.mod_eq_of_lt few, Nat.mod_eq_of_lt most] at parted

theorem turn_eq {i : Nat} (below : i < n) : turn n c ((c + i) % n) = i :=
  have pos := Nat.zero_lt_of_lt below
  eq_of_add_mod (turn_lt pos) below (add_turn_mod (Nat.mod_lt _ pos))

/-- Past the wrap the slot is the number itself, counted from zero. -/
theorem slot_of_wrapped {i : Nat} (start : c < w) (below : i < n) (wrapped : w ≤ c + i) :
    slot w n c i = (c + i) % w := by
  refine Nat.mod_eq_of_lt ?_
  rcases Nat.lt_or_ge w n with small | large
  · exact Nat.lt_trans (Nat.mod_lt _ (Nat.zero_lt_of_lt start)) small
  · rw [Nat.mod_eq_sub_mod wrapped, Nat.mod_eq_of_lt (by omega)]
    omega

theorem visits_slot {i : Nat} (start : c < w) (below : i < n) : Visits w n c (slot w n c i) := by
  refine ⟨Nat.lt_of_le_of_lt (Nat.mod_le _ _) (Nat.mod_lt _ (Nat.zero_lt_of_lt start)), ?_⟩
  rcases Nat.lt_or_ge (c + i) w with early | wrapped
  · rw [slot_of_lt early, turn_eq below]
    exact .inl early
  · rw [slot_of_wrapped start below wrapped]
    have less : (c + i) % w ≤ c + i - w := by
      rw [Nat.mod_eq_sub_mod wrapped]
      exact Nat.mod_le _ _
    exact .inr (by omega)

/-- What the scan comes to is what it looks at. -/
theorem exists_slot_iff (start : c < w) (below : j < n) :
    (∃ i < n, slot w n c i = j) ↔ Visits w n c j := by
  constructor
  · rintro ⟨i, least, rfl⟩
    exact visits_slot start least
  · rintro ⟨small, early | wrapped⟩
    · refine ⟨turn n c j, turn_lt (Nat.zero_lt_of_lt below), ?_⟩
      rw [slot_of_lt early, add_turn_mod below]
    · refine ⟨w + j - c, by omega, ?_⟩
      rw [slot, show c + (w + j - c) = w + j by omega, Nat.add_mod_left, Nat.mod_eq_of_lt small,
        Nat.mod_eq_of_lt below]

/-! ## The first one -/

theorem lt_of_first (found : first p w n c = some m) : m < n := by
  obtain ⟨i, least, rfl⟩ := List.mem_map.mp (List.mem_of_find?_eq_some found)
  exact slot_lt (Nat.zero_lt_of_lt (List.mem_range.mp least)) i

theorem holds_of_first (found : first p w n c = some m) : p m = true :=
  List.find?_some found

theorem first_isSome_iff (start : c < w) :
    (first p w n c).isSome = true ↔ ∃ j < n, p j = true ∧ Visits w n c j := by
  rw [first, List.find?_isSome]
  constructor
  · rintro ⟨j, member, holds⟩
    obtain ⟨i, least, rfl⟩ := List.mem_map.mp member
    have least := List.mem_range.mp least
    exact ⟨_, slot_lt (Nat.zero_lt_of_lt least) i, holds, visits_slot start least⟩
  · rintro ⟨j, below, holds, visits⟩
    obtain ⟨i, least, rfl⟩ := (exists_slot_iff start below).mpr visits
    exact ⟨_, List.mem_map_of_mem (List.mem_range.mpr least), holds⟩

/-- It is what the scan looks at when nothing before had the property. -/
theorem first_eq_some_iff : first p w n c = some m ↔
    p m = true ∧ ∃ i < n, slot w n c i = m ∧ ∀ k < i, p (slot w n c k) = false := by
  rw [first, List.find?_eq_some_iff_getElem]
  simp only [List.length_map, List.length_range, List.getElem_map, List.getElem_range,
    Bool.not_eq_true', exists_prop]

theorem first_of_slot (pos : 0 < n) (holds : p (slot w n c 0) = true) :
    first p w n c = some (slot w n c 0) :=
  first_eq_some_iff.mpr ⟨holds, 0, pos, rfl, fun _ before => absurd before (Nat.not_lt_zero _)⟩

/-- Where the scan starts at a slot without the property, the next scan finds the same. -/
theorem first_succ (misses : p (slot w n c 0) = false) (found : first p w n c = some m) :
    first p w n (c + 1) = some m := by
  obtain ⟨holds, i, below, at_, before⟩ := first_eq_some_iff.mp found
  cases i with
  | zero =>
      rw [at_, holds] at misses
      cases misses
  | succ i =>
      refine first_eq_some_iff.mpr ⟨holds, i, Nat.lt_of_succ_lt below, ?_, fun k earlier => ?_⟩
      · rw [← slot_succ, at_]
      · rw [← slot_succ]
        exact before _ (Nat.succ_lt_succ earlier)

/-- What is found after the wrap is the least. -/
theorem le_of_first (start : c < w) (found : first p w n c = some m)
    (late : w ≤ c + turn n c m) {k : Nat} (holds : p k = true) : m ≤ k := by
  obtain ⟨_, i, below, rfl, before⟩ := first_eq_some_iff.mp found
  have wrapped : w ≤ c + i := by
    rcases Nat.lt_or_ge (c + i) w with early | wrapped
    · rw [slot_of_lt early, turn_eq below] at late
      omega
    · exact wrapped
  rw [slot_of_wrapped start below wrapped]
  by_contra less
  have less : k < (c + i) % w := Nat.lt_of_not_le less
  have most : (c + i) % w < w := Nat.mod_lt _ (Nat.zero_lt_of_lt start)
  have slot_lt_n : (c + i) % w < n := by
    rw [← slot_of_wrapped start below wrapped]
    exact slot_lt (Nat.zero_lt_of_lt below) i
  have parts := Nat.mod_add_div (c + i) w
  have rounds : w * 1 ≤ w * ((c + i) / w) :=
    Nat.mul_le_mul_left w (Nat.div_pos wrapped (Nat.zero_lt_of_lt start))
  -- The smaller slot was looked at that many steps earlier.
  have earlier : slot w n c (i - ((c + i) % w - k)) = k := by
    have sum : c + (i - ((c + i) % w - k)) = k + w * ((c + i) / w) := by omega
    rw [slot, sum, Nat.add_mul_mod_self_left, Nat.mod_eq_of_lt (Nat.lt_trans less most),
      Nat.mod_eq_of_lt (Nat.lt_trans less slot_lt_n)]
  have misses := before (i - ((c + i) % w - k)) (by omega)
  rw [earlier, holds] at misses
  cases misses

/-! ## Taking turns -/

/-- The slots with the property. -/
def all (p : Nat → Bool) (n : Nat) : List Nat :=
  (List.range n).filter p

/--
The scans from `c` to `c + last` all start at a slot with the property but the
last, and that one finds the one slot left, before the wrap or as the least.
-/
structure InTurn (p : Nat → Bool) (w n c last : Nat) : Prop where
  here : ∀ j < last, p ((c + j) % n) = true
  left : ∀ m < n, p m = true → (∀ j < last, (c + j) % n ≠ m) →
    m < w ∧ (c + last + turn n (c + last) m < w ∨
      w + m < c + last + n ∧ ∀ k < n, p k = true → m ≤ k)

variable {last : Nat}

theorem mem_all : m ∈ all p n ↔ m < n ∧ p m = true := by
  rw [all, List.mem_filter, List.mem_range]

theorem nodup_all : (all p n).Nodup :=
  List.nodup_range.filter p

theorem length_all_le : (all p n).length ≤ n :=
  (List.length_filter_le _ _).trans_eq List.length_range

theorem lt_of_length_all (count : (all p n).length = last + 1) : last < n :=
  count.symm.le.trans length_all_le

/-- A scan that starts at a slot with the property takes it. -/
theorem first_of_here (below : c < w) (pos : 0 < n) (holds : p (c % n) = true) :
    first p w n c = some (c % n) := by
  have start : slot w n c 0 = c % n := slot_of_lt (i := 0) below
  rw [← start] at holds ⊢
  exact first_of_slot pos holds

/-- Slots before the one that is left lack the property. -/
theorem lacks_of_lt_turn (below : m < n) (others : ∀ j < last, (c + j) % n ≠ m)
    (only : ∀ k < n, p k = true → k = m ∨ ∃ j < last, (c + j) % n = k) {i : Nat}
    (before : i < turn n (c + last) m) : p ((c + last + i) % n) = false := by
  have pos := Nat.zero_lt_of_lt below
  have most : turn n (c + last) m < n := turn_lt pos
  by_contra holds
  rcases only _ (Nat.mod_lt _ pos) (Bool.eq_true_of_not_eq_false holds) with same | ⟨j, earlier, same⟩
  · have found : turn n (c + last) m = i := by
      rw [← same, turn_eq (by omega)]
    omega
  · -- A whole round lies between, and `m` would have been met in it.
    have round : ∃ d, d < last ∧ (c + d) % n = m := by
      have whole : n ≤ last - j + i := by
        by_contra short
        have together : (c + j) % n = (c + j + (last - j + i)) % n := by
          rw [same, show c + j + (last - j + i) = c + last + i by omega]
        have none := eq_of_add_mod (c := c + j) (i := 0) (by omega) (by omega) together
        omega
      refine ⟨last + turn n (c + last) m - n, by omega, ?_⟩
      rw [← Nat.add_mod_right, show c + (last + turn n (c + last) m - n) + n =
        c + last + turn n (c + last) m by omega, add_turn_mod below]
    obtain ⟨d, less, met⟩ := round
    exact others d less met

/-- The last scan finds what is left. -/
theorem InTurn.first_last (turns : InTurn p w n c last) (start : c + last < w) (below : m < n)
    (holds : p m = true) (others : ∀ j < last, (c + j) % n ≠ m)
    (only : ∀ k < n, p k = true → k = m ∨ ∃ j < last, (c + j) % n = k) :
    first p w n (c + last) = some m := by
  have pos := Nat.zero_lt_of_lt below
  have lacks {k : Nat} (before : k < turn n (c + last) m) : p ((c + last + k) % n) = false :=
    lacks_of_lt_turn below others only before
  refine first_eq_some_iff.mpr ⟨holds, ?_⟩
  obtain ⟨small, early | ⟨wrapped, least⟩⟩ := turns.left m below holds others
  · refine ⟨turn n (c + last) m, turn_lt pos, ?_, fun i before => ?_⟩
    · rw [slot_of_lt early, add_turn_mod below]
    · rw [slot_of_lt (by omega)]
      exact lacks before
  · by_cases early : c + last + turn n (c + last) m < w
    · refine ⟨turn n (c + last) m, turn_lt pos, ?_, fun i before => ?_⟩
      · rw [slot_of_lt early, add_turn_mod below]
      · rw [slot_of_lt (by omega)]
        exact lacks before
    · refine ⟨w + m - (c + last), by omega, ?_, fun i before => ?_⟩
      · rw [slot, show c + last + (w + m - (c + last)) = w + m by omega, Nat.add_mod_left,
          Nat.mod_eq_of_lt small, Nat.mod_eq_of_lt below]
      · rcases Nat.lt_or_ge (c + last + i) w with sooner | later
        · rw [slot_of_lt sooner]
          exact lacks (by omega)
        · rw [slot_of_wrapped start (by omega) later, Nat.mod_eq_sub_mod later,
            Nat.mod_eq_of_lt (by omega)]
          by_contra other
          have up := least _ (by omega) (Bool.eq_true_of_not_eq_false other)
          omega

/-- The scans that start at the slots in turn. -/
def starts (n c last : Nat) : List Nat :=
  (List.range last).map fun j => (c + j) % n

theorem nodup_starts (few : last ≤ n) : (starts n c last).Nodup :=
  List.Nodup.map_on
    (fun _ early _ late same =>
      eq_of_add_mod (Nat.lt_of_lt_of_le (List.mem_range.mp early) few)
        (Nat.lt_of_lt_of_le (List.mem_range.mp late) few) same)
    List.nodup_range

theorem mem_starts {k : Nat} : k ∈ starts n c last ↔ ∃ j < last, (c + j) % n = k := by
  simp [starts]

/-- When all scans but the last start at a slot with the property, one slot is left. -/
theorem exists_left (count : (all p n).length = last + 1)
    (here : ∀ j < last, p ((c + j) % n) = true) :
    ∃ m, (all p n).Perm (starts n c last ++ [m]) := by
  have few : last ≤ n := Nat.le_of_lt (lt_of_length_all count)
  have pos : 0 < n := Nat.zero_lt_of_lt (lt_of_length_all count)
  have inside : starts n c last ⊆ all p n := by
    intro k member
    obtain ⟨j, less, rfl⟩ := mem_starts.mp member
    exact mem_all.mpr ⟨Nat.mod_lt _ pos, here j less⟩
  obtain ⟨same, perm, sub⟩ := (nodup_starts few).subperm inside
  obtain ⟨rest, parted⟩ := sub.exists_perm_append
  have split : (all p n).Perm (starts n c last ++ rest) := parted.trans (perm.append_right rest)
  have one : rest.length = 1 := by
    have lengths := split.length_eq
    rw [List.length_append, count, starts, List.length_map, List.length_range] at lengths
    omega
  obtain ⟨m, rfl⟩ := List.length_eq_one_iff.mp one
  exact ⟨m, split⟩

/--
`last + 1` scans from `c` on find each slot with the property exactly once if
and only if the slots are in turn.
-/
theorem firsts_perm_iff (start : c + last < w) (count : (all p n).length = last + 1) :
    ((List.range (last + 1)).map fun j => first p w n (c + j)).Perm ((all p n).map some) ↔
      InTurn p w n c last := by
  have pos : 0 < n := Nat.zero_lt_of_lt (lt_of_length_all count)
  constructor
  · intro perm
    have found {j : Nat} (few : j < last + 1) :
        ∃ m, first p w n (c + j) = some m ∧ m < n ∧ p m = true := by
      have member := perm.subset (List.mem_map_of_mem (List.mem_range.mpr few))
      obtain ⟨m, healthy, same⟩ := List.mem_map.mp member
      exact ⟨m, same.symm, mem_all.mp healthy⟩
    have apart {i j : Nat} (few : i < last + 1) (most : j < last + 1)
        (same : first p w n (c + i) = first p w n (c + j)) : i = j :=
      List.inj_on_of_nodup_map (perm.nodup_iff.mpr (nodup_all.map (Option.some_injective _)))
        (List.mem_range.mpr few) (List.mem_range.mpr most) same
    have here : ∀ j < last, p ((c + j) % n) = true := by
      intro j less
      by_contra misses
      obtain ⟨m, same, _⟩ := found (Nat.lt_succ_of_lt less)
      -- Two scans in a row would find one slot.
      have again : first p w n (c + j + 1) = some m := by
        refine first_succ ?_ same
        rw [slot_of_lt (by omega)]
        exact Bool.eq_false_of_not_eq_true misses
      have one := apart (Nat.lt_succ_of_lt less) (Nat.succ_lt_succ less) (same.trans again.symm)
      omega
    refine ⟨here, fun m below holds others => ?_⟩
    have member := perm.symm.subset (List.mem_map_of_mem (mem_all.mpr ⟨below, holds⟩))
    obtain ⟨j, few, same⟩ := List.mem_map.mp member
    have few := List.mem_range.mp few
    have final : j = last := by
      by_contra other
      have less : j < last := by omega
      rw [first_of_here (by omega) pos (here j less)] at same
      exact others j less (Option.some.inj same)
    subst final
    have visits := (exists_slot_iff start below).mp (by
      obtain ⟨_, i, least, at_, _⟩ := first_eq_some_iff.mp same
      exact ⟨i, least, at_⟩)
    refine ⟨visits.1, ?_⟩
    rcases Nat.lt_or_ge (c + j + turn n (c + j) m) w with early | late
    · exact .inl early
    · refine .inr ⟨visits.2.resolve_left (Nat.not_lt.mpr late), fun k _ other => ?_⟩
      exact le_of_first start same late other
  · intro turns
    obtain ⟨m, split⟩ := exists_left count turns.here
    have distinct : (starts n c last ++ [m]).Nodup := split.nodup_iff.mp nodup_all
    have others : ∀ j < last, (c + j) % n ≠ m := fun j less same =>
      (List.nodup_append.mp distinct).2.2 _ (mem_starts.mpr ⟨j, less, rfl⟩) m (by simp) same
    have only : ∀ k < n, p k = true → k = m ∨ ∃ j < last, (c + j) % n = k := by
      intro k less holds
      rcases List.mem_append.mp (split.subset (mem_all.mpr ⟨less, holds⟩)) with early | final
      · exact .inr (mem_starts.mp early)
      · exact .inl (List.mem_singleton.mp final)
    obtain ⟨below, holds⟩ := mem_all.mp (split.symm.subset (by simp : m ∈ starts n c last ++ [m]))
    have each : ((List.range (last + 1)).map fun j => first p w n (c + j)) =
        (starts n c last ++ [m]).map some := by
      rw [List.range_succ, List.map_append, List.map_append, starts, List.map_map]
      congr 1
      · refine List.map_congr_left fun j member => ?_
        have less := List.mem_range.mp member
        exact first_of_here (by omega) pos (turns.here j less)
      · exact congrArg (fun found => [found])
          (turns.first_last start below holds others only)
    rw [each]
    exact (split.map some).symm

end StormLb.Ring
