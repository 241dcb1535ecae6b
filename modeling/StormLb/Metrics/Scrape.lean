import Mathlib.Data.List.Nodup
import StormLb.Metrics.Recorded

/-!
# The series of a scrape

The values that a scrape finds: what was recorded, or the series computed for the scrape
where it has one, each exact as long as it is below 2^53.
-/

namespace StormLb.Metrics

variable {f64 : F64} {records : List Record} {name : String} {ty : Ty}

/-! ## The catalogue -/

/-- Whether the catalogue gives the name this type. -/
def Catalogued (name : String) (ty : Ty) : Prop :=
  ∃ entry ∈ catalog, entry.name = name ∧ entry.ty = ty

theorem catalog_names_nodup : (catalog.map Described.name).Nodup := by
  decide +kernel

theorem catalog_name_inj {entry other : Described} (member : entry ∈ catalog)
    (otherMember : other ∈ catalog) (same : entry.name = other.name) : entry = other :=
  List.inj_on_of_nodup_map catalog_names_nodup member otherMember same

theorem Catalogued.ty_eq {ty' : Ty} (catalogued : Catalogued name ty)
    (other : Catalogued name ty') : ty = ty' := by
  obtain ⟨entry, member, named, rfl⟩ := catalogued
  obtain ⟨entry', member', named', rfl⟩ := other
  rw [catalog_name_inj member member' (named.trans named'.symm)]

theorem Catalogued.isCounter (catalogued : Catalogued name ty) :
    (catalog.any fun entry => entry.name = name ∧ entry.ty = .counter) =
      decide (ty = .counter) := by
  cases counter : decide (ty = .counter) with
  | true =>
      obtain ⟨entry, member, named, typed⟩ := of_decide_eq_true counter ▸ catalogued
      exact List.any_eq_true.mpr ⟨entry, member, decide_eq_true ⟨named, typed⟩⟩
  | false =>
      refine List.any_eq_false.mpr fun entry member found => of_decide_eq_false counter ?_
      obtain ⟨named, typed⟩ := of_decide_eq_true found
      exact catalogued.ty_eq ⟨entry, member, named, typed⟩

/-! ## Extra series -/

/-- A series computed for the scrape, of a type that is not a histogram. -/
structure Extra where
  name : String
  ty : Ty
  labels : LabelSet
  value : Int
  scalar : ty ≠ .histogram

namespace Extra

def key (extra : Extra) : Key :=
  (extra.name, extra.labels.text)

def series (f64 : F64) (extra : Extra) : String × List Char × f64.Value :=
  (extra.name, extra.labels.text, f64.ofInt extra.value)

end Extra

/-- The last of the extra series with this name, type and labels. -/
def extraOf (extra : List Extra) (name : String) (ty : Ty) (pairs : List (List Char × List Char)) :
    Option Int :=
  (extra.filter fun e => e.name = name ∧ e.ty = ty ∧ e.labels.pairs = pairs).getLast?.map
    Extra.value

/-- What was recorded of a counter or a gauge. -/
def recordedValue (records : List Record) (name : String) (ty : Ty)
    (pairs : List (List Char × List Char)) : Option Int :=
  match ty with
  | .counter => (counted (ops records name pairs)).map Int.ofNat
  | .gauge => gauged (ops records name pairs)
  | .histogram => none

/-- The value of a counter or a gauge in a scrape. -/
def valueOf (records : List Record) (extra : List Extra) (name : String) (ty : Ty)
    (pairs : List (List Char × List Char)) : Option Int :=
  (extraOf extra name ty pairs).or (recordedValue records name ty pairs)

/-- The counters and gauges of a scrape. -/
def scraped (f64 : F64) (records : List Record) (extra : List Extra) : Scraped f64 × Scraped f64 :=
  (extra.map (Extra.series f64)).foldl insertExtra
    ((recorded f64 records).counters.map fun _ v => f64.ofInt v.toNat,
      (recorded f64 records).gauges.map fun _ v => f64.ofInt v.toInt)

theorem render_recorded (records : List Record) (extra : List Extra) :
    render (recorded f64 records) (extra.map (Extra.series f64)) =
      catalog.flatMap (renderOne (scraped f64 records extra).1 (scraped f64 records extra).2
        (recorded f64 records).hists) :=
  rfl

/-- The map that a type of series is in. -/
def mapOf (maps : Scraped f64 × Scraped f64) (ty : Ty) : Scraped f64 :=
  if ty = .counter then maps.1 else maps.2

theorem insertExtra_mapOf {e : Extra} {key : Key} (catalogued : Catalogued e.name e.ty)
    (other : Catalogued key.1 ty) (maps : Scraped f64 × Scraped f64) :
    (mapOf (insertExtra maps (e.series f64)) ty)[key]? =
      if e.key = key then some (f64.ofInt e.value) else (mapOf maps ty)[key]? := by
  have inserted : insertExtra maps (e.series f64) =
      if e.ty = .counter then (maps.1.insert e.key (f64.ofInt e.value), maps.2)
      else (maps.1, maps.2.insert e.key (f64.ofInt e.value)) := by
    have isCounter := catalogued.isCounter
    by_cases counter : e.ty = .counter
    · rw [decide_eq_true counter] at isCounter
      rw [if_pos counter]
      exact if_pos isCounter
    · rw [decide_eq_false counter] at isCounter
      rw [if_neg counter]
      exact if_neg (Bool.not_eq_true _ ▸ isCounter)
  rw [inserted]
  by_cases same : e.key = key
  · have sameName : key.1 = e.name := congrArg Prod.fst same.symm
    have sameTy : e.ty = ty := catalogued.ty_eq (sameName ▸ other)
    rw [if_pos same, sameTy, mapOf]
    by_cases counter : ty = .counter
    · rw [if_pos counter, if_pos counter, same, Std.ExtTreeMap.getElem?_insert_self]
    · rw [if_neg counter, if_neg counter, same, Std.ExtTreeMap.getElem?_insert_self]
  · rw [if_neg same, mapOf, mapOf]
    split <;> split <;> simp [getElem?_insert, same]

theorem foldl_last {Event Value : Type} (value : Event → Value) (events : List Event)
    (v : Option Value) :
    events.foldl (fun _ e => some (value e)) v = (events.getLast?.map value).or v := by
  induction events using List.reverseRecOn with
  | nil => rfl
  | append_singleton events e _ =>
      rw [List.foldl_concat, List.getLast?_concat]
      rfl

/-- What the extra series make of a map of the scrape. -/
theorem foldl_insertExtra {extra : List Extra} (catalogued : ∀ e ∈ extra, Catalogued e.name e.ty)
    {key : Key} (other : Catalogued key.1 ty) (maps : Scraped f64 × Scraped f64) :
    (mapOf ((extra.map (Extra.series f64)).foldl insertExtra maps) ty)[key]? =
      (((extra.filter fun e => e.key = key).getLast?.map Extra.value).map f64.ofInt).or
        (mapOf maps ty)[key]? := by
  rw [List.foldl_map, Option.map_map, ← foldl_last]
  refine foldl_cell (fun maps => (mapOf maps ty)[key]?) (fun e => decide (e.key = key))
    (fun _ (e : Extra) => some (f64.ofInt e.value)) (fun maps e member => ?_) maps
  simp only [insertExtra_mapOf (catalogued e member) other, decide_eq_true_eq]

/-! ## Values -/

/-- Every number of the scrape is below 2^53, where `f64` is exact. -/
structure Exact (records : List Record) (extra : List Extra) : Prop where
  values : ∀ name ty pairs n, valueOf records extra name ty pairs = some n → n.natAbs < 2 ^ 53
  counts : ∀ name pairs, (seen (ops records name pairs)).length < 2 ^ 53

theorem toNat_ofNat {n : Nat} (exact : n < 2 ^ 53) : (UInt64.ofNat n).toNat = n :=
  UInt64.toNat_ofNat_of_lt' (Nat.lt_trans exact (by decide))

theorem toInt_ofInt {n : Int} (exact : n.natAbs < 2 ^ 53) : (Int64.ofInt n).toInt = n :=
  Int64.toInt_ofInt_of_le (by omega) (by omega)

/-- A map of recorded values, before the extra series. -/
theorem mapOf_recorded (ls : LabelSet)
    (exact : ∀ n, recordedValue records name ty ls.pairs = some n → n.natAbs < 2 ^ 53)
    (notHistogram : ty ≠ .histogram) :
    (mapOf ((recorded f64 records).counters.map fun _ v => f64.ofInt v.toNat,
        (recorded f64 records).gauges.map fun _ v => f64.ofInt v.toInt) ty)[(name, ls.text)]? =
      (recordedValue records name ty ls.pairs).map f64.ofInt := by
  cases ty with
  | counter =>
      rw [mapOf, if_pos rfl, Std.ExtTreeMap.getElem?_map, counters_opsAt, opsAt_text,
        foldl_counterCell, recordedValue, Option.map_map, Option.map_map]
      refine Option.map_congr fun n counted => ?_
      have small : n < 2 ^ 53 := exact n (by rw [recordedValue, counted]; rfl)
      exact congrArg (f64.ofInt ∘ Int.ofNat) (toNat_ofNat small)
  | gauge =>
      rw [mapOf, if_neg nofun, Std.ExtTreeMap.getElem?_map, gauges_opsAt, opsAt_text,
        foldl_gaugeCell, recordedValue, Option.map_map]
      exact Option.map_congr fun n gauged => congrArg f64.ofInt (toInt_ofInt (exact n gauged))
  | histogram => exact absurd rfl notHistogram

/-- In a catalogued scrape the name of an extra series tells its type. -/
theorem extraOf_text {extra : List Extra} (catalogued : ∀ e ∈ extra, Catalogued e.name e.ty)
    (other : Catalogued name ty) (ls : LabelSet) :
    (extra.filter fun e => e.key = (name, ls.text)).getLast?.map Extra.value =
      extraOf extra name ty ls.pairs := by
  refine congrArg (fun list : List Extra => list.getLast?.map Extra.value)
    (List.filter_congr fun e member => decide_eq_decide.mpr ?_)
  constructor
  · intro same
    obtain ⟨rfl, text⟩ := Prod.mk.inj same
    exact ⟨rfl, (catalogued e member).ty_eq other, LabelSet.text_inj.mp text⟩
  · rintro ⟨rfl, -, pairs⟩
    exact Prod.ext rfl (LabelSet.text_inj.mpr pairs)

/-- A scrape has the value of each counter and each gauge. -/
theorem scraped_value {extra : List Extra} (catalogued : ∀ e ∈ extra, Catalogued e.name e.ty)
    (other : Catalogued name ty) (notHistogram : ty ≠ .histogram) (exact : Exact records extra)
    (ls : LabelSet) :
    (mapOf (scraped f64 records extra) ty)[(name, ls.text)]? =
      (valueOf records extra name ty ls.pairs).map f64.ofInt := by
  rw [scraped, foldl_insertExtra catalogued other, extraOf_text catalogued other, valueOf]
  cases found : extraOf extra name ty ls.pairs with
  | some value => rfl
  | none =>
      have small (n : Int) (value : recordedValue records name ty ls.pairs = some n) :
          n.natAbs < 2 ^ 53 :=
        exact.values name ty ls.pairs n (by rw [valueOf, found, value]; rfl)
      rw [Option.map_none, Option.none_or, Option.none_or, mapOf_recorded ls small notHistogram]

/-! ## Keys -/

/-- Nothing is scraped under a key that nothing was recorded or computed under. -/
theorem scraped_label {extra : List Extra} (catalogued : ∀ e ∈ extra, Catalogued e.name e.ty)
    {key : Key} (other : Catalogued key.1 ty) {v : f64.Value}
    (found : (mapOf (scraped f64 records extra) ty)[key]? = some v) :
    ∃ ls : LabelSet, key.2 = ls.text := by
  rw [scraped, foldl_insertExtra catalogued other] at found
  cases last : (extra.filter fun e => e.key = key).getLast? with
  | some e =>
      obtain ⟨-, same⟩ := List.mem_filter.mp (List.mem_of_getLast? last)
      exact ⟨e.labels, congrArg Prod.snd (of_decide_eq_true same).symm⟩
  | none =>
      rw [last, Option.map_none, Option.map_none, Option.none_or] at found
      have some : opsAt records key ≠ [] := by
        intro empty
        rw [mapOf] at found
        split at found
        · rw [Std.ExtTreeMap.getElem?_map, counters_opsAt, empty] at found
          exact absurd found.symm (Option.some_ne_none v)
        · rw [Std.ExtTreeMap.getElem?_map, gauges_opsAt, empty] at found
          exact absurd found.symm (Option.some_ne_none v)
      obtain ⟨r, -, same⟩ := exists_of_opsAt some
      exact ⟨r.labels, congrArg Prod.snd same.symm⟩

theorem hists_label {key : Key} {h : Hist f64}
    (found : (recorded f64 records).hists[key]? = some h) : ∃ ls : LabelSet, key.2 = ls.text := by
  have some : opsAt records key ≠ [] := by
    intro empty
    rw [hists_opsAt, empty] at found
    exact absurd found.symm (Option.some_ne_none h)
  obtain ⟨r, -, same⟩ := exists_of_opsAt some
  exact ⟨r.labels, congrArg Prod.snd same.symm⟩

theorem hists_value (ls : LabelSet) :
    (recorded f64 records).hists[(name, ls.text)]? =
      if seen (ops records name ls.pairs) = [] then none
      else some (histOf f64 (seen (ops records name ls.pairs))) := by
  rw [hists_opsAt, opsAt_text, foldl_histCell]

/-! ## Where values come from -/

theorem mem_ops {pairs : List (List Char × List Char)} {op : Op} :
    op ∈ ops records name pairs ↔
      ∃ r ∈ records, (r.name = name ∧ r.labels.pairs = pairs) ∧ r.op = op := by
  simp [ops, and_assoc]

theorem gauged_eq_none {ops : List Op} (others : ∀ op ∈ ops, op.ty ≠ .gauge) :
    gauged ops = none := by
  unfold gauged
  induction ops with
  | nil => rfl
  | cons op ops ih =>
      obtain ⟨here, later⟩ := List.forall_mem_cons.mp others
      have same : gaugeStep none op = none := by
        cases op with
        | inc => rfl
        | observe d => rfl
        | _ => exact absurd rfl here
      rw [List.foldl_cons, same, ih later]

theorem exists_of_recordedValue {pairs : List (List Char × List Char)} {n : Int}
    (value : recordedValue records name ty pairs = some n) :
    ∃ r ∈ records, (r.name = name ∧ r.labels.pairs = pairs) ∧ r.op.ty = ty := by
  obtain ⟨op, member, typed⟩ : ∃ op ∈ ops records name pairs, op.ty = ty := by
    cases ty with
    | counter =>
        by_contra others
        push Not at others
        have zero : (ops records name pairs).countP (· = .inc) = 0 :=
          List.countP_eq_zero.mpr fun op member inc =>
            others op member (congrArg Op.ty (of_decide_eq_true inc))
        rw [recordedValue, counted, if_pos zero] at value
        exact absurd value.symm (Option.some_ne_none n)
    | gauge =>
        by_contra others
        push Not at others
        rw [recordedValue, gauged_eq_none others] at value
        exact absurd value.symm (Option.some_ne_none n)
    | histogram => exact absurd value.symm (Option.some_ne_none n)
  obtain ⟨r, inside, here, rfl⟩ := mem_ops.mp member
  exact ⟨r, inside, here, typed⟩

theorem exists_of_seen {pairs : List (List Char × List Char)}
    (observed : seen (ops records name pairs) ≠ []) :
    ∃ r ∈ records, (r.name = name ∧ r.labels.pairs = pairs) ∧ r.op.ty = .histogram := by
  obtain ⟨d, member⟩ := List.exists_mem_of_ne_nil _ observed
  obtain ⟨op, inside, is⟩ := List.mem_filterMap.mp member
  obtain ⟨r, recorded, here, rfl⟩ := mem_ops.mp inside
  refine ⟨r, recorded, here, ?_⟩
  cases op : r.op with
  | observe d => rfl
  | _ =>
      rw [op] at is
      exact absurd is.symm (Option.some_ne_none d)

/-- What has a value was recorded or computed, with its labels and its type. -/
theorem exists_of_valueOf {extra : List Extra} {pairs : List (List Char × List Char)} {n : Int}
    (value : valueOf records extra name ty pairs = some n) :
    (∃ r ∈ records, (r.name = name ∧ r.labels.pairs = pairs) ∧ r.op.ty = ty) ∨
      ∃ e ∈ extra, (e.name = name ∧ e.labels.pairs = pairs) ∧ e.ty = ty := by
  rw [valueOf] at value
  cases last : extraOf extra name ty pairs with
  | some _ =>
      obtain ⟨e, last, -⟩ := Option.map_eq_some_iff.mp last
      obtain ⟨member, same⟩ := List.mem_filter.mp (List.mem_of_getLast? last)
      obtain ⟨named, typed, labelled⟩ := of_decide_eq_true same
      exact .inr ⟨e, member, ⟨named, labelled⟩, typed⟩
  | none =>
      rw [last, Option.none_or] at value
      exact .inl (exists_of_recordedValue value)

end StormLb.Metrics
