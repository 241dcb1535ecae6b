import Mathlib.Data.BitVec
import StormLb.Metrics.Recorded

/-!
# Series as machine words

What a counter and a gauge stand at, an absent one at zero, and how each
recorder moves them.
-/

namespace StormLb.Metrics

variable {f64 : F64}

/-- What a counter stands at. -/
def counter (m : Metrics f64) (key : Key) : BitVec 64 :=
  (m.counters[key]?.getD 0).toBitVec

/-- What a gauge stands at. -/
def gauge (m : Metrics f64) (key : Key) : BitVec 64 :=
  (m.gauges[key]?.getD 0).toBitVec

theorem counter_default (key : Key) : (default f64).counter key = 0 := by
  simp [counter, default]

theorem gauge_default (key : Key) : (default f64).gauge key = 0 := by
  simp [gauge, default]

variable (m : Metrics f64) (name : String) (l : List (List Char × List Char)) (key : Key)

theorem counter_inc :
    (m.inc name l).counter key = m.counter key + if (name, labels l) = key then 1 else 0 := by
  unfold counter inc
  rw [getElem?_alter]
  split
  · simp
  · simp

theorem gauge_active :
    (m.active name l).1.gauge key = m.gauge key + if (name, labels l) = key then 1 else 0 := by
  unfold gauge active
  simp only [getElem?_alter]
  split
  · simp
  · simp

/-- A guard counts down in a gauge that is there. -/
theorem gauge_drop {m : Metrics f64} {guard : ActiveGuard}
    (present : m.gauges[(guard.name, guard.key)]?.isSome = true) (key : Key) :
    (m.drop guard).gauge key =
      m.gauge key + if (guard.name, guard.key) = key then -1 else 0 := by
  unfold gauge drop
  rw [getElem?_modify]
  split
  · rename_i same
    subst same
    obtain ⟨v, at_⟩ := Option.isSome_iff_exists.mp present
    simp [at_, BitVec.sub_eq_add_neg]
  · simp

/-- What is recorded under another name leaves a series as it is. -/
theorem counter_record {r : Record} (other : r.name ≠ key.1) :
    (record m r).counter key = m.counter key := by
  rw [counter, counter, counters_record, if_neg]
  rintro rfl
  exact other rfl

theorem gauge_record {r : Record} (other : r.name ≠ key.1) :
    (record m r).gauge key = m.gauge key := by
  rw [gauge, gauge, gauges_record, if_neg]
  rintro rfl
  exact other rfl

/-! ## Gauges stay -/

theorem present_active : (m.active name l).1.gauges[(name, labels l)]?.isSome = true := by
  simp [active]

variable {key}

theorem present_record (r : Record) (present : m.gauges[key]?.isSome = true) :
    (record m r).gauges[key]?.isSome = true := by
  rw [gauges_record]
  split
  · obtain ⟨v, at_⟩ := Option.isSome_iff_exists.mp present
    rw [at_]
    cases r.op <;> rfl
  · exact present

theorem present_active_of (present : m.gauges[key]?.isSome = true) :
    (m.active name l).1.gauges[key]?.isSome = true := by
  simp only [active, getElem?_alter]
  split
  · rfl
  · exact present

theorem present_drop (guard : ActiveGuard) (present : m.gauges[key]?.isSome = true) :
    (m.drop guard).gauges[key]?.isSome = true := by
  simp only [drop, getElem?_modify]
  split
  · rw [Option.isSome_map]
    exact present
  · exact present

end StormLb.Metrics
