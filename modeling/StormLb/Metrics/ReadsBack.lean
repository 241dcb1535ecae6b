import Mathlib.Data.List.DropRight
import Mathlib.Data.List.Sublists
import StormLb.Metrics.Samples

/-!
# The exposition reads back as what was recorded

The text of a scrape is read as the recorded series, each once, under its own HELP and TYPE,
with histograms that are cumulative.
-/

namespace StormLb.Metrics

open Exposition (Row Block Sample Family decimal)

variable {f64 : F64} {records : List Record} {extra : List Extra} {name : String} {ty : Ty}

/-! ## Each series once -/

theorem ofName_keys_nodup {Value : Type} (name : String) (series : Series Value) :
    ((ofName name series).map Prod.fst).Nodup := by
  refine List.Nodup.sublist (List.filter_sublist.map _) (List.pairwise_map.mpr ?_)
  exact Std.ExtTreeMap.distinct_keys_toList.imp fun apart same => apart (Key.cmp_eq_iff.mpr same)

theorem valueRows_nodup (catalogued : ∀ e ∈ extra, Catalogued e.name e.ty)
    (other : Catalogued name ty) :
    (((ofName name (mapOf (scraped f64 records extra) ty)).map valueRow).map fun row =>
      (row.name, row.labels)).Nodup := by
  have keys : ((ofName name (mapOf (scraped f64 records extra) ty)).map valueRow).map
      (fun row => (row.name, row.labels)) =
        ((ofName name (mapOf (scraped f64 records extra) ty)).map Prod.fst).map
          fun key => (key.1.toList, decoded key.2) := by
    rw [List.map_map, List.map_map]
    rfl
  rw [keys]
  refine List.Nodup.map_on ?_ (ofName_keys_nodup _ _)
  intro key member key' member' same
  obtain ⟨entry, inside, rfl⟩ := List.mem_map.mp member
  obtain ⟨entry', inside', rfl⟩ := List.mem_map.mp member'
  obtain ⟨ls, shape⟩ := scraped_row catalogued other inside
  obtain ⟨ls', shape'⟩ := scraped_row catalogued other inside'
  rw [shape, shape', ls.decoded_text, ls'.decoded_text] at same
  rw [shape, shape', LabelSet.text_inj.mpr (Prod.mk.inj same).2]

/-- The series of one histogram: what their names and labels end in. -/
def histSeries : List (List Char × List (List Char × List Char)) :=
  ((List.finRange buckets.length).map fun i =>
      ("_bucket".toList, [(['l', 'e'], (buckets.get i).text)])) ++
    [("_bucket".toList, [(['l', 'e'], "+Inf".toList)]), ("_sum".toList, []), ("_count".toList, [])]

theorem histSeries_nodup : histSeries.Nodup := by
  decide +kernel

theorem histRows_series (n : String) (ls : LabelSet) (h : Hist f64) :
    ((histRows ((n, ls.text), h)).map fun row => (row.name, row.labels)) =
      histSeries.map fun series => (n.toList ++ series.1, ls.pairs ++ series.2) := by
  rw [histRows, histSeries, List.map_append, List.map_append, List.map_map, List.map_map,
    ls.decoded_text]
  refine congr (congrArg _ (List.map_congr_left fun i _ => ?_)) ?_
  · rw [Function.comp_apply, bucketRow, ls.decoded_text]
    rfl
  · rw [List.map_cons, bucketRow, ls.decoded_text]
    simp

/-- The labels of a histogram's series, but for `le`, are those it was recorded with. -/
theorem LabelSet.filter_le (ls : LabelSet) {series : List Char × List (List Char × List Char)}
    (member : series ∈ histSeries) :
    (ls.pairs ++ series.2).filter (fun pair => pair.1 ≠ ['l', 'e']) = ls.pairs := by
  have own : ls.pairs.filter (fun pair => pair.1 ≠ ['l', 'e']) = ls.pairs := by
    refine List.filter_eq_self.mpr fun pair inside => decide_eq_true fun le => ?_
    exact ls.reserved (List.mem_map.mpr ⟨pair, inside, le⟩)
  have added : ∀ series ∈ histSeries, series.2.filter (fun pair => pair.1 ≠ ['l', 'e']) = [] := by
    decide +kernel
  rw [List.filter_append, own, added series member, List.append_nil]

theorem histRows_nodup :
    (((ofName name (recorded f64 records).hists).flatMap histRows).map fun row =>
      (row.name, row.labels)).Nodup := by
  rw [List.map_flatMap]
  refine List.nodup_flatMap.mpr ⟨fun entry inside => ?_, ?_⟩
  · obtain ⟨ls, shape⟩ := hists_row inside
    rw [shape, histRows_series]
    refine histSeries_nodup.map fun series series' same => ?_
    obtain ⟨names, labels⟩ := Prod.mk.inj same
    exact Prod.ext (List.append_cancel_left names) (List.append_cancel_left labels)
  · refine (List.pairwise_map.mp (ofName_keys_nodup _ _)).imp_of_mem ?_
    intro entry entry' inside inside' apart series member member'
    obtain ⟨ls, shape⟩ := hists_row inside
    obtain ⟨ls', shape'⟩ := hists_row inside'
    change series ∈ (histRows entry).map _ at member
    change series ∈ (histRows entry').map _ at member'
    rw [shape, histRows_series] at member
    rw [shape', histRows_series] at member'
    obtain ⟨left, leftMember, rfl⟩ := List.mem_map.mp member
    obtain ⟨right, rightMember, same⟩ := List.mem_map.mp member'
    have pairs : ls'.pairs = ls.pairs := by
      rw [← ls'.filter_le rightMember, (Prod.mk.inj same).2, ls.filter_le leftMember]
    refine apart ?_
    rw [shape, shape', LabelSet.text_inj.mpr pairs]

theorem rowsOf_nodup (catalogued : ∀ e ∈ extra, Catalogued e.name e.ty)
    (other : Catalogued name ty) :
    ((rowsOf f64 records extra name ty).map fun row => (row.name, row.labels)).Nodup := by
  rw [rowsOf]
  split
  · exact histRows_nodup
  · exact valueRows_nodup catalogued other

/-! ## Cumulative buckets -/

/-- The buckets of each histogram of a family do not decrease with `le`, and its last, `+Inf`, is
its count. -/
structure Cumulative (family : Family) : Prop where
  nondecreasing : ∀ pairs, ∀ bound ∈ buckets, ∀ bound' ∈ buckets, bound.nanos ≤ bound'.nanos →
    ∀ n n', bucketSample family.name pairs bound.text n ∈ family.samples →
      bucketSample family.name pairs bound'.text n' ∈ family.samples → n ≤ n'
  belowInf : ∀ pairs, ∀ bound ∈ buckets, ∀ n n',
    bucketSample family.name pairs bound.text n ∈ family.samples →
      bucketSample family.name pairs "+Inf".toList n' ∈ family.samples → n ≤ n'
  infIsCount : ∀ pairs n n', bucketSample family.name pairs "+Inf".toList n ∈ family.samples →
    sampleOf (family.name ++ "_count".toList) pairs n' ∈ family.samples → n = n'

section

variable {pairs pairs' : List (List Char × List Char)} {metric le : List Char} {n : Int}
  {durations : List Nat}

theorem bucketSample_inj {le' : List Char} {n' : Int}
    (same : bucketSample metric pairs le n = bucketSample metric pairs' le' n') :
    pairs = pairs' ∧ le = le' ∧ n = n' := by
  have labels : pairs ++ [(['l', 'e'], le)] = pairs' ++ [(['l', 'e'], le')] :=
    congrArg Sample.labels same
  obtain ⟨pairs, last⟩ := List.append_inj' labels rfl
  have value : Exposition.Number.whole n = .whole n' := congrArg Sample.value same
  exact ⟨pairs, (Prod.mk.inj (List.cons.inj last).1).2, Exposition.Number.whole.inj value⟩

theorem suffix_ne {suffix suffix' : List Char} (apart : suffix ≠ suffix') :
    metric ++ suffix ≠ metric ++ suffix' :=
  fun same => apart (List.append_cancel_left same)

/-- A bucket among the samples of a histogram counts what its `le` says. -/
theorem mem_histogramSamples_bucket
    (member : bucketSample metric pairs le n ∈ histogramSamples f64 metric pairs' durations) :
    pairs = pairs' ∧
      ((∃ bound ∈ buckets, bound.text = le ∧ n = durations.countP (· ≤ bound.nanos)) ∨
        le = "+Inf".toList ∧ n = durations.length) := by
  rcases List.mem_append.mp member with bucket | others
  · obtain ⟨bound, inside, same⟩ := List.mem_map.mp bucket
    obtain ⟨rfl, text, rfl⟩ := bucketSample_inj same
    exact ⟨rfl, .inl ⟨bound, inside, text, rfl⟩⟩
  rcases List.mem_cons.mp others with same | others
  · obtain ⟨rfl, rfl, rfl⟩ := bucketSample_inj same
    exact ⟨rfl, .inr ⟨rfl, rfl⟩⟩
  rcases List.mem_cons.mp others with same | others
  · exact absurd (congrArg Sample.name same) (suffix_ne (by decide))
  · exact absurd (congrArg Sample.name (List.mem_singleton.mp others)) (suffix_ne (by decide))

theorem mem_histogramSamples_count
    (member : sampleOf (metric ++ "_count".toList) pairs n ∈
      histogramSamples f64 metric pairs' durations) :
    pairs = pairs' ∧ n = durations.length := by
  rcases List.mem_append.mp member with bucket | others
  · obtain ⟨bound, -, same⟩ := List.mem_map.mp bucket
    exact absurd (congrArg Sample.name same) (suffix_ne (by decide))
  rcases List.mem_cons.mp others with same | others
  · exact absurd (congrArg Sample.name same) (suffix_ne (by decide))
  rcases List.mem_cons.mp others with same | others
  · exact absurd (congrArg Sample.name same) (suffix_ne (by decide))
  · have same := List.mem_singleton.mp others
    have value : Exposition.Number.whole n = .whole durations.length := congrArg Sample.value same
    exact ⟨congrArg Sample.labels same, Exposition.Number.whole.inj value⟩

end

theorem buckets_text_inj : ∀ bound ∈ buckets, ∀ bound' ∈ buckets, bound.text = bound'.text →
    bound = bound' := by
  decide +kernel

theorem buckets_text_ne_inf : ∀ bound ∈ buckets, bound.text ≠ "+Inf".toList := by
  decide +kernel

/-- A recorded bucket counts the durations up to its bound. -/
theorem recorded_bucket {bound : Bound} (inside : bound ∈ buckets)
    {pairs : List (List Char × List Char)} {n : Int}
    (was : Recorded f64 records extra name .histogram
      (bucketSample name.toList pairs bound.text n)) :
    n = (seen (ops records name pairs)).countP (· ≤ bound.nanos) := by
  rw [Recorded, if_pos rfl] at was
  obtain ⟨pairs', -, member⟩ := was
  obtain ⟨rfl, counts | ⟨inf, -⟩⟩ := mem_histogramSamples_bucket member
  · obtain ⟨other, otherInside, text, rfl⟩ := counts
    rw [buckets_text_inj other otherInside bound inside text]
  · exact absurd inf (buckets_text_ne_inf bound inside)

theorem recorded_inf {pairs : List (List Char × List Char)} {n : Int}
    (was : Recorded f64 records extra name .histogram
      (bucketSample name.toList pairs "+Inf".toList n)) :
    n = (seen (ops records name pairs)).length := by
  rw [Recorded, if_pos rfl] at was
  obtain ⟨pairs', -, member⟩ := was
  obtain ⟨rfl, counts | ⟨-, count⟩⟩ := mem_histogramSamples_bucket member
  · obtain ⟨other, otherInside, text, -⟩ := counts
    exact absurd text (buckets_text_ne_inf other otherInside)
  · exact count

theorem recorded_count {pairs : List (List Char × List Char)} {n : Int}
    (was : Recorded f64 records extra name .histogram
      (sampleOf (name.toList ++ "_count".toList) pairs n)) :
    n = (seen (ops records name pairs)).length := by
  rw [Recorded, if_pos rfl] at was
  obtain ⟨pairs', -, member⟩ := was
  obtain ⟨rfl, count⟩ := mem_histogramSamples_count member
  exact count

theorem cumulative_of_recorded {family : Family} (named : family.name = name.toList)
    (all : ∀ sample ∈ family.samples, Recorded f64 records extra name .histogram sample) :
    Cumulative family where
  nondecreasing pairs bound inside bound' inside' le n n' here there := by
    rw [named] at here there
    rw [recorded_bucket inside (all _ here), recorded_bucket inside' (all _ there)]
    refine Int.ofNat_le.mpr (List.countP_mono_left fun d _ below => ?_)
    exact decide_eq_true (Nat.le_trans (of_decide_eq_true below) le)
  belowInf pairs bound inside n n' here there := by
    rw [named] at here there
    rw [recorded_bucket inside (all _ here), recorded_inf (all _ there)]
    exact Int.ofNat_le.mpr List.countP_le_length
  infIsCount pairs n n' here there := by
    rw [named] at here there
    rw [recorded_inf (all _ here), recorded_count (all _ there)]

/-! ## The whole scrape -/

/-- Everything was recorded, or computed for the scrape, under a name of the catalogue and as
the type that it gives the name. -/
structure AllCatalogued (records : List Record) (extra : List Extra) : Prop where
  records : ∀ r ∈ records, Catalogued r.name r.op.ty
  extra : ∀ e ∈ extra, Catalogued e.name e.ty

/-- What is read of a scrape: the recorded series and no others, each once, under its own HELP
and TYPE, with cumulative histograms. -/
structure ReadsBack (f64 : F64) (records : List Record) (extra : List Extra)
    (families : List Family) : Prop where
  headed : ∀ family ∈ families, ∃ entry ∈ catalog, family.name = entry.name.toList ∧
    family.help = some entry.help.toList ∧ family.kind = some entry.ty.kind
  apart : (families.map Family.name).Nodup
  series : ∀ name ty sample, Recorded f64 records extra name ty sample ↔
    ∃ family ∈ families, family.name = name.toList ∧ family.kind = some ty.kind ∧
      sample ∈ family.samples
  once : ∀ family ∈ families, (family.samples.map fun s => (s.name, s.labels)).Nodup
  cumulative : ∀ family ∈ families, family.kind = some .histogram → Cumulative family

theorem AllCatalogued.of_recorded (all : AllCatalogued records extra) {sample : Sample}
    (was : Recorded f64 records extra name ty sample) : Catalogued name ty := by
  rw [Recorded] at was
  split at was
  · rename_i histogram
    obtain ⟨pairs, observed, -⟩ := was
    obtain ⟨r, member, ⟨rfl, -⟩, typed⟩ := exists_of_seen observed
    exact histogram ▸ typed ▸ all.records r member
  · obtain ⟨pairs, n, value, -⟩ := was
    rcases exists_of_valueOf value with ⟨r, member, ⟨rfl, -⟩, rfl⟩ | ⟨e, member, ⟨rfl, -⟩, rfl⟩
    · exact all.records r member
    · exact all.extra e member

theorem Ty.kind_inj {ty ty' : Ty} (same : ty.kind = ty'.kind) : ty = ty' := by
  cases ty <;> cases ty' <;> first | rfl | exact Exposition.Kind.noConfusion same

/-- A family that is written is the one of an entry of the catalogue. -/
theorem mem_families {family : Family}
    (member : family ∈ (blocks f64 records extra).map Block.family) :
    ∃ entry ∈ catalog, family = (blockOf f64 records extra entry).family := by
  obtain ⟨block, inside, rfl⟩ := List.mem_map.mp member
  obtain ⟨entry, listed, rfl⟩ := List.mem_map.mp (List.mem_filter.mp inside).1
  exact ⟨entry, listed, rfl⟩

/-- A metric with a sample has a family. -/
theorem family_mem {entry : Described} (listed : entry ∈ catalog) {sample : Sample}
    (member : sample ∈ (rowsOf f64 records extra entry.name entry.ty).map Row.sample) :
    (blockOf f64 records extra entry).family ∈ (blocks f64 records extra).map Block.family := by
  have rows : (blockOf f64 records extra entry).rows ≠ [] := by
    intro empty
    change sample ∈ (blockOf f64 records extra entry).rows.map Row.sample at member
    rw [empty] at member
    exact absurd member List.not_mem_nil
  exact List.mem_map_of_mem (List.mem_filter.mpr
    ⟨List.mem_map_of_mem listed, decide_eq_true rows⟩)

theorem readsBack (all : AllCatalogued records extra) (exact : Exact records extra) :
    ReadsBack f64 records extra ((blocks f64 records extra).map Block.family) where
  headed family member := by
    obtain ⟨entry, listed, rfl⟩ := mem_families member
    exact ⟨entry, listed, rfl, rfl, rfl⟩
  apart := by
    rw [List.map_map]
    exact blocks_names_nodup
  series name ty sample := by
    constructor
    · intro was
      obtain ⟨entry, listed, rfl, rfl⟩ := all.of_recorded was
      have member := (mem_rowsOf_iff all.extra ⟨entry, listed, rfl, rfl⟩ exact sample).mpr was
      exact ⟨_, family_mem listed member, rfl, rfl, member⟩
    · rintro ⟨family, member, named, typed, inside⟩
      obtain ⟨entry, listed, rfl⟩ := mem_families member
      obtain rfl : entry.name = name := String.toList_inj.mp named
      obtain rfl : entry.ty = ty := Ty.kind_inj (Option.some.inj typed)
      exact (mem_rowsOf_iff all.extra ⟨entry, listed, rfl, rfl⟩ exact sample).mp inside
  once family member := by
    obtain ⟨entry, listed, rfl⟩ := mem_families member
    have nodup : ((rowsOf f64 records extra entry.name entry.ty).map fun row =>
        (row.name, row.labels)).Nodup :=
      rowsOf_nodup all.extra ⟨entry, listed, rfl, rfl⟩
    change (((rowsOf f64 records extra entry.name entry.ty).map Row.sample).map _).Nodup
    rw [List.map_map]
    exact nodup
  cumulative family member histogram := by
    obtain ⟨entry, listed, rfl⟩ := mem_families member
    have typed : entry.ty = .histogram := @Ty.kind_inj _ .histogram (Option.some.inj histogram)
    have recorded : ∀ sample ∈ (blockOf f64 records extra entry).family.samples,
        Recorded f64 records extra entry.name .histogram sample := fun sample inside =>
      typed ▸ (mem_rowsOf_iff all.extra ⟨entry, listed, rfl, rfl⟩ exact sample).mp inside
    exact cumulative_of_recorded rfl recorded

/-- The exposition reads back as what was recorded. -/
theorem exposition_readsBack (f64 : F64) (records : List Record) (extra : List Extra)
    (all : AllCatalogued records extra) (exact : Exact records extra) :
    (∀ (name : String) (pairs others : List (List Char × List Char)),
      pairs.map Prod.fst = others.map Prod.fst → pairs.map Prod.snd ≠ others.map Prod.snd →
        ((name, labels pairs) : Key) ≠ (name, labels others)) ∧
    ∃ families,
      Exposition.parse (render (recorded f64 records) (extra.map (Extra.series f64))) =
        some families ∧ ReadsBack f64 records extra families := by
  refine ⟨fun name pairs others names values same => values ?_, _, parse_render all.extra,
    readsBack all exact⟩
  have text := (Prod.mk.inj same).2
  rw [labels_eq_writeLabels, labels_eq_writeLabels] at text
  rw [Exposition.writeLabels_values names text]

/-! ## One scrape -/

theorem toDigits_digits (n : Nat) : ∀ c ∈ Nat.toDigits 10 n, c.isDigit = true :=
  fun _ member => Nat.isDigit_of_mem_toDigits (by decide) (by decide) member

/-- Nine digits, without the zeros at their end. -/
def fraction (n : Nat) : List Char :=
  (Nat.toDigits 10 (1000000000 + n)).tail.rdropWhile (· = '0')

theorem fraction_digits (n : Nat) : ∀ c ∈ fraction n, c.isDigit = true :=
  fun c member => toDigits_digits _ c
    (List.mem_of_mem_tail ((List.rdropWhile_prefix _ _).mem member))

/-- `f64` for numbers of few digits: billionths, displayed as decimals. -/
def billionths : F64 where
  Value := Int
  zero := 0
  add := (· + ·)
  ofInt n := n * 1000000000
  asSecsF64 d := d
  display v :=
    if 1000000000 ∣ v then decimal (v / 1000000000)
    else if v < 0 then
      '-' :: (Nat.toDigits 10 (v.natAbs / 1000000000) ++ '.' :: fraction (v.natAbs % 1000000000))
    else Nat.toDigits 10 (v.natAbs / 1000000000) ++ '.' :: fraction (v.natAbs % 1000000000)
  display_float v := by
    have float := Exposition.isFloat_point Nat.toDigits_ne_nil
      (toDigits_digits (v.natAbs / 1000000000)) (fraction_digits (v.natAbs % 1000000000))
    split
    · exact Exposition.isFloat_decimal _
    · split
      · exact float.2
      · exact float.1
  display_ofInt n _ := by
    rw [if_pos (Int.dvd_mul_left n 1000000000), Int.mul_ediv_cancel n (by decide)]

example : billionths.display (30000000 : Int) = "0.03".toList := by decide +kernel

def weirdLabels : LabelSet where
  pairs := [("host".toList, "we\"ird\\\n".toList), ("code".toList, "404".toList)]
  named := by decide
  distinct := by decide
  reserved := by decide

def hostLabels : LabelSet where
  pairs := [("host".toList, "a.test".toList)]
  named := by decide
  distinct := by decide
  reserved := by decide

def someRecords : List Record :=
  [⟨"stormlb_router_requests_total", weirdLabels, .inc⟩,
    ⟨"stormlb_router_request_duration_seconds", hostLabels, .observe 30000000⟩,
    ⟨"stormlb_router_routes", ⟨[], by decide, by decide, by decide⟩, .gaugeSet 2⟩]

def versionExtra : Extra where
  name := "stormlb_build_info"
  ty := .gauge
  labels := ⟨[("version".toList, "9.9.9".toList)], by decide, by decide, by decide⟩
  value := 1
  scalar := by decide

theorem someRecords_catalogued : AllCatalogued someRecords [versionExtra] where
  records := by
    unfold Catalogued
    decide +kernel
  extra := by
    unfold Catalogued
    decide +kernel

theorem ops_sublist (records : List Record) (name : String)
    (pairs : List (List Char × List Char)) :
    (ops records name pairs).Sublist (records.map Record.op) :=
  List.filter_sublist.map _

theorem someRecords_exact : Exact someRecords [versionExtra] := by
  have small : ∀ ops ∈ (someRecords.map Record.op).sublists,
      (counted ops).all (· < 2 ^ 53) = true ∧ (gauged ops).all (·.natAbs < 2 ^ 53) = true ∧
        (seen ops).length < 2 ^ 53 := by
    decide +kernel
  have each (name : String) (pairs : List (List Char × List Char)) :=
    small _ (List.mem_sublists.mpr (ops_sublist someRecords name pairs))
  refine ⟨fun name ty pairs n value => ?_, fun name pairs => (each name pairs).2.2⟩
  rw [valueOf] at value
  cases last : extraOf [versionExtra] name ty pairs with
  | some m =>
      obtain ⟨e, found, rfl⟩ := Option.map_eq_some_iff.mp last
      have only : e = versionExtra :=
        List.mem_singleton.mp (List.mem_filter.mp (List.mem_of_getLast? found)).1
      rw [last, Option.some_or, only] at value
      rw [← Option.some.inj value]
      decide
  | none =>
      rw [last, Option.none_or] at value
      cases ty with
      | counter =>
          obtain ⟨m, found, rfl⟩ := Option.map_eq_some_iff.mp value
          exact of_decide_eq_true ((Option.all_eq_true _ _).mp (each name pairs).1 m found)
      | gauge =>
          exact of_decide_eq_true ((Option.all_eq_true _ _).mp (each name pairs).2.1 n value)
      | histogram => exact absurd value.symm (Option.some_ne_none n)

theorem exposition_readsBack_weird :
    (∀ (name : String) (pairs others : List (List Char × List Char)),
      pairs.map Prod.fst = others.map Prod.fst → pairs.map Prod.snd ≠ others.map Prod.snd →
        ((name, labels pairs) : Key) ≠ (name, labels others)) ∧
    ∃ families,
      Exposition.parse (render (recorded billionths someRecords)
        ([versionExtra].map (Extra.series billionths))) = some families ∧
        ReadsBack billionths someRecords [versionExtra] families :=
  exposition_readsBack billionths someRecords [versionExtra] someRecords_catalogued
    someRecords_exact

end StormLb.Metrics
