import Mathlib.Data.List.Induction
import StormLb.Metrics.Labels

/-!
# What was recorded

Runs of recordings, what they come to under one name and its labels as plain numbers, and
that the registry holds these numbers in its machine words.
-/

namespace StormLb.Metrics

variable {f64 : F64}

/-! ## Runs -/

/-- What a recorder does to its series. -/
inductive Op where
  | inc
  | gaugeAdd (d : Int64)
  | gaugeSet (v : Int64)
  | observe (d : Nat)
  | active
  | drop
  deriving DecidableEq

def Op.ty : Op → Ty
  | .inc => .counter
  | .observe _ => .histogram
  | _ => .gauge

structure Record where
  name : String
  labels : LabelSet
  op : Op

def Record.key (r : Record) : Key :=
  (r.name, r.labels.text)

def record (m : Metrics f64) (r : Record) : Metrics f64 :=
  match r.op with
  | .inc => m.inc r.name r.labels.pairs
  | .gaugeAdd d => m.gaugeAdd r.name r.labels.pairs d
  | .gaugeSet v => m.gaugeSet r.name r.labels.pairs v
  | .observe d => m.observe r.name r.labels.pairs d
  | .active => (m.active r.name r.labels.pairs).1
  | .drop => m.drop (m.active r.name r.labels.pairs).2

def recorded (f64 : F64) (records : List Record) : Metrics f64 :=
  records.foldl record (default f64)

/-! ## Plain numbers -/

/-- What was done to one series. -/
def ops (records : List Record) (name : String) (pairs : List (List Char × List Char)) : List Op :=
  (records.filter fun r => r.name = name ∧ r.labels.pairs = pairs).map Record.op

def counted (ops : List Op) : Option Nat :=
  if ops.countP (· = .inc) = 0 then none else some (ops.countP (· = .inc))

def gaugeStep (v : Option Int) : Op → Option Int
  | .gaugeAdd d => some (v.getD 0 + d.toInt)
  | .gaugeSet d => some d.toInt
  | .active => some (v.getD 0 + 1)
  | .drop => v.map (· - 1)
  | .inc | .observe _ => v

def gauged (ops : List Op) : Option Int :=
  ops.foldl gaugeStep none

/-- The durations observed. -/
def seen (ops : List Op) : List Nat :=
  ops.filterMap fun
    | .observe d => some d
    | _ => none

/-! ## One series of the registry -/

/-- A place of a state on which some of the events act, and no others. -/
theorem foldl_cell {State Event Value : Type} (cell : State → Option Value)
    {step : State → Event → State} (here : Event → Bool)
    (change : Option Value → Event → Option Value) {events : List Event}
    (acts : ∀ s, ∀ e ∈ events,
      cell (step s e) = if here e then change (cell s) e else cell s) (s : State) :
    cell (events.foldl step s) = (events.filter here).foldl change (cell s) := by
  induction events generalizing s with
  | nil => rfl
  | cons e events ih =>
      obtain ⟨first, later⟩ : _ ∧ ∀ s, ∀ e ∈ events, _ :=
        ⟨fun s => acts s e List.mem_cons_self, fun s e member =>
          acts s e (List.mem_cons_of_mem _ member)⟩
      rw [List.foldl_cons, ih later, first, List.filter_cons]
      cases here e <;> rfl

@[simp]
theorem Key.cmp_eq_iff {key key' : Key} : Key.cmp key key' = .eq ↔ key = key' :=
  Std.LawfulEqCmp.compare_eq_iff_eq

def counterCell (v : Option UInt64) : Op → Option UInt64
  | .inc => some (v.getD 0 + 1)
  | _ => v

def gaugeCell (v : Option Int64) : Op → Option Int64
  | .gaugeAdd d => some (v.getD 0 + d)
  | .gaugeSet d => some d
  | .active => some (v.getD 0 + 1)
  | .drop => v.map (· - 1)
  | _ => v

def histCell (h : Option (Hist f64)) : Op → Option (Hist f64)
  | .observe d => some ((h.getD (Hist.default f64)).observe d)
  | _ => h

section

variable {Value : Type} (series : Series Value) (key key' : Key)

theorem getElem?_alter (f : Option Value → Option Value) :
    (series.alter key f)[key']? = if key = key' then f series[key']? else series[key']? := by
  rw [Std.ExtTreeMap.getElem?_alter]
  simp only [Key.cmp_eq_iff]
  split
  · rename_i same
    rw [same]
  · rfl

theorem getElem?_insert (v : Value) :
    (series.insert key v)[key']? = if key = key' then some v else series[key']? := by
  rw [Std.ExtTreeMap.getElem?_insert]
  simp only [Key.cmp_eq_iff]

theorem getElem?_modify (f : Value → Value) :
    (series.modify key f)[key']? = if key = key' then series[key']?.map f else series[key']? := by
  rw [Std.ExtTreeMap.getElem?_modify]
  simp only [Key.cmp_eq_iff]
  split
  · rename_i same
    rw [same]
  · rfl

end

theorem counters_record (m : Metrics f64) (r : Record) (key : Key) :
    (record m r).counters[key]? =
      if r.key = key then counterCell m.counters[key]? r.op else m.counters[key]? := by
  obtain ⟨name, ls, op⟩ := r
  cases op with
  | inc => exact getElem?_alter m.counters (name, ls.text) key _
  | _ => exact (ite_self _).symm

theorem gauges_record (m : Metrics f64) (r : Record) (key : Key) :
    (record m r).gauges[key]? =
      if r.key = key then gaugeCell m.gauges[key]? r.op else m.gauges[key]? := by
  obtain ⟨name, ls, op⟩ := r
  cases op with
  | gaugeAdd d => exact getElem?_alter m.gauges (name, ls.text) key _
  | gaugeSet v => exact getElem?_insert m.gauges (name, ls.text) key v
  | active => exact getElem?_alter m.gauges (name, ls.text) key _
  | drop => exact getElem?_modify m.gauges (name, ls.text) key _
  | _ => exact (ite_self _).symm

theorem hists_record (m : Metrics f64) (r : Record) (key : Key) :
    (record m r).hists[key]? =
      if r.key = key then histCell m.hists[key]? r.op else m.hists[key]? := by
  obtain ⟨name, ls, op⟩ := r
  cases op with
  | observe d => exact getElem?_alter m.hists (name, ls.text) key _
  | _ => exact (ite_self _).symm

/-- The records of one key. -/
def opsAt (records : List Record) (key : Key) : List Op :=
  (records.filter fun r => r.key = key).map Record.op

theorem opsAt_text (records : List Record) (name : String) (ls : LabelSet) :
    opsAt records (name, ls.text) = ops records name ls.pairs := by
  refine congrArg (List.map Record.op) (List.filter_congr fun r _ => ?_)
  simp [Record.key, LabelSet.text_inj]

/-- A key that something was recorded under is the one of a record. -/
theorem exists_of_opsAt {records : List Record} {key : Key} (some : opsAt records key ≠ []) :
    ∃ r ∈ records, r.key = key := by
  obtain ⟨op, member⟩ := List.exists_mem_of_ne_nil _ some
  obtain ⟨r, inside, -⟩ := List.mem_map.mp member
  obtain ⟨recorded, same⟩ := List.mem_filter.mp inside
  exact ⟨r, recorded, of_decide_eq_true same⟩

/-- A place of the registry that each record acts on as the records of one key do. -/
theorem cell_opsAt {Value : Type} (cell : Metrics f64 → Option Value) {key : Key}
    {change : Option Value → Op → Option Value}
    (acts : ∀ m r, cell (record m r) = if r.key = key then change (cell m) r.op else cell m)
    (records : List Record) :
    cell (recorded f64 records) = (opsAt records key).foldl change (cell (default f64)) := by
  rw [opsAt, List.foldl_map, recorded]
  refine foldl_cell cell (fun r => decide (r.key = key)) (fun v (r : Record) => change v r.op)
    (fun m r _ => ?_) (default f64)
  simp only [acts, decide_eq_true_eq]

theorem counters_opsAt (records : List Record) (key : Key) :
    (recorded f64 records).counters[key]? = (opsAt records key).foldl counterCell none := by
  rw [cell_opsAt (·.counters[key]?) (counters_record · · key)]
  exact congrArg (List.foldl counterCell · _) Std.ExtTreeMap.getElem?_empty

theorem gauges_opsAt (records : List Record) (key : Key) :
    (recorded f64 records).gauges[key]? = (opsAt records key).foldl gaugeCell none := by
  rw [cell_opsAt (·.gauges[key]?) (gauges_record · · key)]
  exact congrArg (List.foldl gaugeCell · _) Std.ExtTreeMap.getElem?_empty

theorem hists_opsAt (records : List Record) (key : Key) :
    (recorded f64 records).hists[key]? = (opsAt records key).foldl histCell none := by
  rw [cell_opsAt (·.hists[key]?) (hists_record · · key)]
  exact congrArg (List.foldl histCell · _) Std.ExtTreeMap.getElem?_empty

/-! ## Machine words -/

theorem counted_concat_inc (ops : List Op) :
    counted (ops ++ [.inc]) = some ((counted ops).getD 0 + 1) := by
  unfold counted
  rw [List.countP_append, List.countP_singleton]
  simp only [decide_true, if_true, Nat.add_one_ne_zero, if_false]
  split
  · rename_i none
    rw [none]
    rfl
  · rfl

theorem counted_concat_of_ne {op : Op} (other : op ≠ .inc) (ops : List Op) :
    counted (ops ++ [op]) = counted ops := by
  unfold counted
  rw [List.countP_append, List.countP_singleton, decide_eq_false other]
  rfl

theorem foldl_counterCell (ops : List Op) :
    ops.foldl counterCell none = (counted ops).map UInt64.ofNat := by
  induction ops using List.reverseRecOn with
  | nil => rfl
  | append_singleton ops op ih =>
      rw [List.foldl_concat, ih]
      cases op with
      | inc =>
          rw [counted_concat_inc]
          cases counted ops <;> simp [counterCell]
      | _ =>
          rw [counted_concat_of_ne (by simp)]
          rfl

theorem foldl_gaugeCell (ops : List Op) :
    ops.foldl gaugeCell none = (gauged ops).map Int64.ofInt := by
  have step (v : Option Int) (op : Op) :
      gaugeCell (v.map Int64.ofInt) op = (gaugeStep v op).map Int64.ofInt := by
    cases op with
    | gaugeAdd d =>
        have sum (n : Int) : Int64.ofInt n + d = Int64.ofInt (n + d.toInt) := by
          rw [Int64.ofInt_add, Int64.ofInt_toInt]
        cases v with
        | none => exact congrArg some (sum 0)
        | some n => exact congrArg some (sum n)
    | gaugeSet d => exact congrArg some (Int64.ofInt_toInt d).symm
    | active =>
        cases v with
        | none => rfl
        | some n => exact congrArg some (Int64.ofInt_add n 1).symm
    | drop =>
        cases v with
        | none => rfl
        | some n => exact congrArg some (Int64.ofInt_sub n 1).symm
    | _ => rfl
  exact @List.foldl_hom _ _ _ (Option.map Int64.ofInt) gaugeStep gaugeCell ops none step

/-- The sum of a histogram, in the order of the observations. -/
def total (f64 : F64) (seen : List Nat) : f64.Value :=
  seen.foldl (fun sum d => f64.add sum (f64.asSecsF64 d)) f64.zero

def histOf (f64 : F64) (seen : List Nat) : Hist f64 :=
  { buckets := fun i => UInt64.ofNat (seen.countP (· ≤ (buckets.get i).nanos))
    sum := total f64 seen
    count := UInt64.ofNat seen.length }

theorem histOf_concat (seen : List Nat) (d : Nat) :
    histOf f64 (seen ++ [d]) = (histOf f64 seen).observe d := by
  have each (i : Fin buckets.length) :
      UInt64.ofNat ((seen ++ [d]).countP (· ≤ (buckets.get i).nanos)) =
      if d ≤ (buckets.get i).nanos then
        UInt64.ofNat (seen.countP (· ≤ (buckets.get i).nanos)) + 1
      else UInt64.ofNat (seen.countP (· ≤ (buckets.get i).nanos)) := by
    rw [List.countP_append, List.countP_singleton]
    by_cases below : d ≤ (buckets.get i).nanos
    · rw [if_pos below, if_pos (decide_eq_true below), UInt64.ofNat_add]
      rfl
    · rw [if_neg below, decide_eq_false below]
      rfl
  unfold histOf Hist.observe
  congr 1
  · exact funext each
  · simp [total]
  · simp

theorem foldl_histCell (ops : List Op) :
    ops.foldl histCell none =
      if seen ops = [] then none else some (histOf f64 (seen ops)) := by
  induction ops using List.reverseRecOn with
  | nil => rfl
  | append_singleton ops op ih =>
      rw [List.foldl_concat, ih]
      cases op with
      | observe d =>
          have more : seen (ops ++ [.observe d]) = seen ops ++ [d] := List.filterMap_append
          rw [more, if_neg (List.append_ne_nil_of_right_ne_nil _ (List.cons_ne_nil _ _)),
            histOf_concat]
          split
          · rename_i empty
            rw [empty]
            rfl
          · rfl
      | _ =>
          have same {op : Op} (other : seen [op] = []) : seen (ops ++ [op]) = seen ops := by
            rw [seen, List.filterMap_append]
            exact (congrArg (_ ++ ·) other).trans (List.append_nil _)
          rw [same rfl]
          rfl

end StormLb.Metrics
