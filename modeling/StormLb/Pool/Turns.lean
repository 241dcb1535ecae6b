import StormLb.Pool
import StormLb.Ring

/-!
# Whose turn it is

`pick` scans the members as a ring from a counter of one machine word.  The
counter moves on by one a pick, however many members the scan has skipped, and
the scan itself may run past the counter's last value.
-/

namespace StormLb.Pool

/-- The member at this index is healthy. -/
def healthyAt (pool : Pool) (j : Nat) : Bool :=
  (pool.backends[j]?).any Backend.healthy

/-- The healthy members, in order. -/
def healthyMembers (pool : Pool) : List Backend :=
  pool.backends.filter Backend.healthy

/-- What consecutive picks return. -/
def picks : Nat → Pool → List (Option Backend)
  | 0, _ => []
  | .succ count, pool => pool.pick.1 :: picks count pool.pick.2

section

variable {pool : Pool}

theorem healthyAt_iff {j : Nat} :
    pool.healthyAt j = true ↔ ∃ b, pool.backends[j]? = some b ∧ b.healthy = true := by
  rw [healthyAt, Option.any_eq_true]

/-- The scan adds the counter and the step in one machine word. -/
theorem slot_eq (start : UInt64) (n i : Nat) :
    (start + UInt64.ofNat i).toNat % n = Ring.slot UInt64.size n start.toNat i := by
  rw [Ring.slot, UInt64.toNat_add, UInt64.toNat_ofNat', Nat.add_mod_mod]

/-- A pick returns the first healthy member of the scan. -/
theorem pick_eq (pool : Pool) : pool.pick.1 =
    (Ring.first pool.healthyAt UInt64.size pool.backends.length pool.next.toNat).bind
      fun j => pool.backends[j]? := by
  have scan (steps : List Nat) :
      (steps.findSome? fun i => (pool.backends[(pool.next + UInt64.ofNat i).toNat %
        pool.backends.length]?).filter Backend.healthy) =
      ((steps.map (Ring.slot UInt64.size pool.backends.length pool.next.toNat)).find?
        pool.healthyAt).bind fun j => pool.backends[j]? := by
    induction steps with
    | nil => rfl
    | cons i rest ih =>
        rw [List.findSome?_cons, List.map_cons, List.find?_cons, slot_eq, ih]
        cases here : pool.backends[Ring.slot UInt64.size pool.backends.length pool.next.toNat i]? with
        | none => simp [healthyAt, here]
        | some b => cases well : b.healthy <;> simp [healthyAt, here, Option.filter, well]
  unfold pick
  dsimp only
  split
  · rename_i empty
    rw [Ring.first, empty]
    rfl
  · exact scan _

theorem pick_next (members : pool.backends ≠ []) : pool.pick.2.next = pool.next + 1 := by
  unfold pick
  dsimp only
  rw [if_neg fun empty => members (List.length_eq_zero_iff.mp empty)]

/-! ## Finding a healthy member -/

/-- A pick stays within the list, and finds a healthy member whenever there is one. -/
structure FindsHealthy (pool : Pool) : Prop where
  inside : ∀ i < pool.backends.length,
    (pool.next + UInt64.ofNat i).toNat % pool.backends.length < pool.backends.length
  healthy : ∀ b, pool.pick.1 = some b → b ∈ pool.backends ∧ b.healthy = true
  found : pool.pick.1.isSome = true ↔ ∃ b ∈ pool.backends, b.healthy = true

/-- The scan comes to some healthy member, if there is one. -/
def Comes (pool : Pool) : Prop :=
  (∃ b ∈ pool.backends, b.healthy = true) →
    ∃ j < pool.backends.length, pool.healthyAt j = true ∧
      Ring.Visits UInt64.size pool.backends.length pool.next.toNat j

theorem pick_isSome_iff (pool : Pool) : pool.pick.1.isSome = true ↔
    ∃ j < pool.backends.length, pool.healthyAt j = true ∧
      Ring.Visits UInt64.size pool.backends.length pool.next.toNat j := by
  rw [← Ring.first_isSome_iff pool.next.toNat_lt_size, pick_eq]
  cases found : Ring.first pool.healthyAt UInt64.size pool.backends.length pool.next.toNat with
  | none => rfl
  | some j =>
      obtain ⟨b, here, _⟩ := healthyAt_iff.mp (Ring.holds_of_first found)
      rw [Option.bind_some, here]
      rfl

theorem findsHealthy_iff (pool : Pool) : pool.FindsHealthy ↔ pool.Comes := by
  constructor
  · rintro ⟨_, _, found⟩ some_
    exact (pick_isSome_iff pool).mp (found.mpr some_)
  · intro comes
    refine ⟨fun i below => Nat.mod_lt _ (Nat.zero_lt_of_lt below), fun b => mem_of_pick, ?_⟩
    constructor
    · intro picked
      obtain ⟨b, same⟩ := Option.isSome_iff_exists.mp picked
      obtain ⟨member, well⟩ := mem_of_pick same
      exact ⟨b, member, well⟩
    · intro some_
      exact (pick_isSome_iff pool).mpr (comes some_)

/-- Three members, and a counter at its last value: the scan looks at 0, 0 and 1. -/
def lastOfThree : Pool where
  backends :=
    [⟨0, ⟨.v4 ⟨10, 0, 0, 1⟩, 6443⟩, false⟩, ⟨1, ⟨.v4 ⟨10, 0, 0, 2⟩, 6443⟩, false⟩,
      ⟨2, ⟨.v4 ⟨10, 0, 0, 3⟩, 6443⟩, true⟩]
  next := 18446744073709551615
  made := 3
  distinct := by decide

/-- The third is healthy, and is not found. -/
theorem lastOfThree_missed : ¬ lastOfThree.FindsHealthy := by
  rintro ⟨_, _, found⟩
  have picked := found.mpr (by decide)
  revert picked
  decide

/-! ## Taking turns -/

/-- Consecutive picks scan from consecutive counters. -/
theorem picks_eq (members : pool.backends ≠ []) (count : Nat)
    (counter : pool.next.toNat + count ≤ UInt64.size) :
    picks count pool = (List.range count).map fun j =>
      (Ring.first pool.healthyAt UInt64.size pool.backends.length (pool.next.toNat + j)).bind
        fun j => pool.backends[j]? := by
  induction count generalizing pool with
  | zero => rfl
  | succ count ih =>
      have same : pool.pick.2.backends = pool.backends := pick_backends pool
      have well : pool.pick.2.healthyAt = pool.healthyAt := by
        funext j
        rw [healthyAt, healthyAt, same]
      rw [picks, pick_eq, List.range_succ_eq_map, List.map_cons, List.map_map, Nat.add_zero]
      refine congrArg _ ?_
      cases count with
      | zero => rfl
      | succ count =>
          have next : pool.pick.2.next.toNat = pool.next.toNat + 1 := by
            rw [pick_next members, UInt64.toNat_add, UInt64.toNat_one]
            exact Nat.mod_eq_of_lt (Nat.lt_of_lt_of_le (by omega) counter)
          rw [ih (by rwa [same]) (by omega), same, well, next]
          refine List.map_congr_left fun j _ => ?_
          rw [Function.comp_apply, Nat.succ_eq_add_one, Nat.add_assoc, Nat.add_comm 1]

theorem map_range_getElem? (members : List Backend) :
    (List.range members.length).map (fun j => members[j]?) = members.map some := by
  refine List.ext_getElem (by simp) fun j _ below => ?_
  have here : j < members.length := by simpa using below
  simp [here]

/-- The healthy slots are those of the healthy members. -/
theorem map_all_healthyAt (pool : Pool) :
    (Ring.all pool.healthyAt pool.backends.length).map (fun j => pool.backends[j]?) =
      pool.healthyMembers.map some := by
  calc (Ring.all pool.healthyAt pool.backends.length).map (fun j => pool.backends[j]?)
      = ((List.range pool.backends.length).map fun j => pool.backends[j]?).filter
          (fun b => b.any Backend.healthy) := List.filter_map.symm
    _ = (pool.backends.map some).filter (fun b => b.any Backend.healthy) := by
      rw [map_range_getElem?]
    _ = pool.healthyMembers.map some := List.filter_map

theorem length_all_healthyAt (pool : Pool) :
    (Ring.all pool.healthyAt pool.backends.length).length = pool.healthyCount := by
  have lengths := congrArg List.length (map_all_healthyAt pool)
  rwa [List.length_map, List.length_map] at lengths

theorem nodup_backends (pool : Pool) : pool.backends.Nodup :=
  List.Nodup.of_map _ pool.distinct

/-- A member tells the index it was looked up at. -/
theorem map_idxOf_getElem? {j : Nat} (below : j < pool.backends.length) :
    (pool.backends[j]?).map pool.backends.idxOf = some j := by
  rw [List.getElem?_eq_getElem below, Option.map_some, pool.nodup_backends.idxOf_getElem]

/-- Each healthy member is returned exactly once. -/
def Fair (pool : Pool) : Prop :=
  (picks pool.healthyCount pool).Perm (pool.healthyMembers.map some)

/--
As many consecutive picks as there are healthy members return each of them once
if and only if all but the last of the picks start at a healthy member, and the
last comes to the one that is left.
-/
theorem fair_iff (pool : Pool) (healthy : 1 ≤ pool.healthyCount)
    (counter : pool.next.toNat + pool.healthyCount ≤ UInt64.size) :
    pool.Fair ↔ Ring.InTurn pool.healthyAt UInt64.size pool.backends.length pool.next.toNat
      (pool.healthyCount - 1) := by
  obtain ⟨last, count⟩ := Nat.exists_eq_add_of_le' healthy
  have members : pool.backends ≠ [] := by
    intro empty
    rw [healthyCount, empty] at healthy
    cases healthy
  rw [count] at counter ⊢
  rw [Nat.add_sub_cancel, ← Ring.firsts_perm_iff (by omega) ((length_all_healthyAt pool).trans count),
    Fair, ← map_all_healthyAt, count, picks_eq members (last + 1) counter]
  constructor
  · intro perm
    have back := perm.map (Option.map pool.backends.idxOf)
    rw [List.map_map, List.map_map] at back
    convert back using 1
    · refine List.map_congr_left fun j _ => ?_
      cases found : Ring.first pool.healthyAt UInt64.size pool.backends.length (pool.next.toNat + j) with
      | none => simp [found]
      | some m => simp [found, map_idxOf_getElem? (Ring.lt_of_first found)]
    · refine List.map_congr_left fun m member => ?_
      exact (map_idxOf_getElem? (Ring.mem_all.mp member).1).symm
  · intro perm
    have looked := perm.map fun j => j.bind fun j => pool.backends[j]?
    rwa [List.map_map, List.map_map] at looked

/-- A counter at the second of three members, which is unhealthy. -/
def secondDown : Pool where
  backends :=
    [⟨0, ⟨.v4 ⟨10, 0, 0, 1⟩, 6443⟩, true⟩, ⟨1, ⟨.v4 ⟨10, 0, 0, 2⟩, 6443⟩, false⟩,
      ⟨2, ⟨.v4 ⟨10, 0, 0, 3⟩, 6443⟩, true⟩]
  next := 1
  made := 3
  distinct := by decide

/-- The third takes the second's turn and its own. -/
theorem secondDown_unfair :
    1 ≤ secondDown.healthyCount ∧ secondDown.next.toNat + secondDown.healthyCount ≤ UInt64.size ∧
      ¬ secondDown.Fair := by
  refine ⟨by decide, by decide, fun fair => ?_⟩
  have twice := fair.nodup_iff.mpr ?_
  · revert twice
    decide
  · decide

/-- A counter that starts at the third finds the first next. -/
theorem fair_iff_third : ({ secondDown with next := 2 } : Pool).Fair := by
  refine (fair_iff _ (by decide) (by decide)).mpr ⟨by decide, fun m below _ _ => ?_⟩
  refine ⟨Nat.lt_trans below (by decide), .inl ?_⟩
  exact Nat.lt_trans (Nat.add_lt_add_left (Ring.turn_lt (by decide)) _) (by decide)

end

end StormLb.Pool
