import Mathlib.Data.List.Perm.Subperm
import StormLb.Metrics.Recorded

/-!
# Which series there are

A recording adds the series it names and no other, and a registry has no more series than
there are keys it takes them from.
-/

namespace StormLb.Metrics

section

variable {Value : Type} {series : Series Value} {key key' : Key}

theorem mem_of_alter {f : Option Value → Option Value} (mem : key' ∈ series.alter key f) :
    key' = key ∨ key' ∈ series := by
  rw [Std.ExtTreeMap.mem_iff_isSome_getElem?, getElem?_alter] at mem
  split_ifs at mem with same
  · exact .inl same.symm
  · exact .inr (Std.ExtTreeMap.mem_iff_isSome_getElem?.mpr mem)

theorem mem_of_modify {f : Value → Value} (mem : key' ∈ series.modify key f) : key' ∈ series :=
  Std.ExtTreeMap.mem_modify.mp mem

/-- A series for each key of a list at most. -/
theorem size_le_length {keys : List Key} (among : ∀ key ∈ series, key ∈ keys) :
    series.size ≤ keys.length := by
  have nodup : series.keys.Nodup := by
    refine series.distinct_keys.imp ?_
    rintro key _ apart rfl
    exact apart (Key.cmp_eq_iff.mpr rfl)
  have subset : series.keys ⊆ keys := fun key member => among key (Std.ExtTreeMap.mem_keys.mp member)
  rw [← Std.ExtTreeMap.length_keys]
  exact (List.subperm_of_subset nodup subset).length_le

end

variable {f64 : F64} {m : Metrics f64} {name : String} {l : List (List Char × List Char)} {key : Key}

theorem mem_inc (mem : key ∈ (m.inc name l).counters) :
    key = (name, labels l) ∨ key ∈ m.counters :=
  mem_of_alter mem

theorem mem_observe {d : Nat} (mem : key ∈ (m.observe name l d).hists) :
    key = (name, labels l) ∨ key ∈ m.hists :=
  mem_of_alter mem

theorem mem_active (mem : key ∈ (m.active name l).1.gauges) :
    key = (name, labels l) ∨ key ∈ m.gauges :=
  mem_of_alter mem

theorem mem_drop {guard : ActiveGuard} (mem : key ∈ (m.drop guard).gauges) : key ∈ m.gauges :=
  mem_of_modify mem

end StormLb.Metrics
