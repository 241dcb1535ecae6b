import StormLb.Metrics.Rows

/-!
# The samples of a scrape

The samples that a scrape should be read as, stated of the records alone, and that the rows
of the scrape are these.
-/

namespace StormLb.Metrics

open Exposition (Row Block Sample Family decimal)

variable {f64 : F64} {records : List Record} {extra : List Extra} {name : String} {ty : Ty}

/-! ## What is to be read -/

def sampleOf (name : List Char) (labels : List (List Char × List Char)) (n : Int) : Sample :=
  { name, labels, value := .whole n }

def bucketSample (name : List Char) (pairs : List (List Char × List Char)) (le : List Char)
    (n : Int) : Sample :=
  sampleOf (name ++ "_bucket".toList) (pairs ++ [(['l', 'e'], le)]) n

/-- The samples of a histogram of these durations. -/
def histogramSamples (f64 : F64) (name : List Char) (pairs : List (List Char × List Char))
    (seen : List Nat) : List Sample :=
  (buckets.map fun bound => bucketSample name pairs bound.text (seen.countP (· ≤ bound.nanos))) ++
    [bucketSample name pairs "+Inf".toList seen.length,
      (Row.mk (name ++ "_sum".toList) pairs (f64.display (total f64 seen))).sample,
      sampleOf (name ++ "_count".toList) pairs seen.length]

/-- The samples that were recorded under a name, as a type. -/
def Recorded (f64 : F64) (records : List Record) (extra : List Extra) (name : String) (ty : Ty)
    (sample : Sample) : Prop :=
  if ty = .histogram then
    ∃ pairs, seen (ops records name pairs) ≠ [] ∧
      sample ∈ histogramSamples f64 name.toList pairs (seen (ops records name pairs))
  else
    ∃ pairs n, valueOf records extra name ty pairs = some n ∧
      sample = sampleOf name.toList pairs n

/-! ## The samples of the rows -/

theorem Row.sample_decimal (name : List Char) (labels : List (List Char × List Char)) (n : Int) :
    (Row.mk name labels (decimal n)).sample = sampleOf name labels n := by
  rw [Row.sample, Exposition.readNumber_decimal]
  rfl

theorem bucketRow_sample (n : String) (ls : LabelSet) (le : List Char) {count : Nat}
    (exact : count < 2 ^ 53) :
    (bucketRow n ls.text le (UInt64.ofNat count)).sample =
      bucketSample n.toList ls.pairs le count := by
  rw [bucketRow, ls.decoded_text, displayU64_eq, toNat_ofNat exact, Row.sample_decimal]
  rfl

theorem histRows_samples (n : String) (ls : LabelSet) {seen : List Nat}
    (exact : seen.length < 2 ^ 53) :
    (histRows ((n, ls.text), histOf f64 seen)).map Row.sample =
      histogramSamples f64 n.toList ls.pairs seen := by
  have bucket (i : Fin buckets.length) :
      (bucketRow n ls.text (buckets.get i).text ((histOf f64 seen).buckets i)).sample =
        bucketSample n.toList ls.pairs (buckets.get i).text
          (seen.countP (· ≤ (buckets.get i).nanos)) :=
    bucketRow_sample n ls _ (Nat.lt_of_le_of_lt List.countP_le_length exact)
  have word : displayU64 (histOf f64 seen).count = decimal seen.length :=
    congrArg (decimal ∘ Int.ofNat) (toNat_ofNat exact)
  have all : (List.finRange buckets.length).map (fun i =>
      bucketSample n.toList ls.pairs (buckets.get i).text
        (seen.countP (· ≤ (buckets.get i).nanos))) =
        buckets.map fun bound =>
          bucketSample n.toList ls.pairs bound.text (seen.countP (· ≤ bound.nanos)) := by
    rw [← List.map_get_finRange buckets, List.map_map]
    rfl
  rw [histRows, List.map_append, List.map_map, ls.decoded_text, histogramSamples, ← all]
  refine congr (congrArg _ (List.map_congr_left fun i _ => bucket i)) ?_
  rw [List.map_cons, List.map_cons, List.map_singleton, word, Row.sample_decimal]
  exact congrArg (· :: _) (bucketRow_sample n ls _ exact)

theorem valueRow_sample (ls : LabelSet) {n : Int} (exact : n.natAbs < 2 ^ 53) :
    (valueRow ((name, ls.text), f64.ofInt n)).sample = sampleOf name.toList ls.pairs n := by
  rw [valueRow, ls.decoded_text, f64.display_ofInt n exact, Row.sample_decimal]

theorem mem_valueRows_iff (catalogued : ∀ e ∈ extra, Catalogued e.name e.ty)
    (other : Catalogued name ty) (scalar : ty ≠ .histogram) (exact : Exact records extra)
    (sample : Sample) :
    sample ∈ ((ofName name (mapOf (scraped f64 records extra) ty)).map valueRow).map Row.sample ↔
      ∃ pairs n, valueOf records extra name ty pairs = some n ∧
        sample = sampleOf name.toList pairs n := by
  rw [List.map_map]
  constructor
  · intro member
    obtain ⟨⟨key, v⟩, inside, rfl⟩ := List.mem_map.mp member
    obtain ⟨ls, shape⟩ := scraped_row catalogued other inside
    obtain rfl : key = (name, ls.text) := congrArg Prod.fst shape
    have found := (mem_ofName.mp inside).1
    rw [scraped_value catalogued other scalar exact ls] at found
    obtain ⟨n, value, rfl⟩ := Option.map_eq_some_iff.mp found
    exact ⟨ls.pairs, n, value, valueRow_sample ls (exact.values _ _ _ n value)⟩
  · rintro ⟨pairs, n, value, rfl⟩
    obtain ⟨ls, rfl⟩ : ∃ ls : LabelSet, ls.pairs = pairs := by
      rcases exists_of_valueOf value with ⟨r, -, here, -⟩ | ⟨e, -, here, -⟩
      · exact ⟨r.labels, here.2⟩
      · exact ⟨e.labels, here.2⟩
    have found : (mapOf (scraped f64 records extra) ty)[(name, ls.text)]? = some (f64.ofInt n) := by
      rw [scraped_value catalogued other scalar exact ls, value, Option.map_some]
    exact List.mem_map.mpr ⟨((name, ls.text), f64.ofInt n), mem_ofName.mpr ⟨found, rfl⟩,
      valueRow_sample ls (exact.values _ _ _ n value)⟩

theorem mem_histRows_iff (exact : Exact records extra) (sample : Sample) :
    sample ∈ ((ofName name (recorded f64 records).hists).flatMap histRows).map Row.sample ↔
      ∃ pairs, seen (ops records name pairs) ≠ [] ∧
        sample ∈ histogramSamples f64 name.toList pairs (seen (ops records name pairs)) := by
  rw [List.map_flatMap]
  constructor
  · intro member
    obtain ⟨⟨key, h⟩, inside, member⟩ := List.mem_flatMap.mp member
    obtain ⟨ls, shape⟩ := hists_row inside
    obtain rfl : key = (name, ls.text) := congrArg Prod.fst shape
    have found := (mem_ofName.mp inside).1
    rw [hists_value] at found
    split at found
    · exact absurd found.symm (Option.some_ne_none h)
    · rename_i observed
      obtain rfl := Option.some.inj found
      rw [histRows_samples name ls (exact.counts name ls.pairs)] at member
      exact ⟨ls.pairs, observed, member⟩
  · rintro ⟨pairs, observed, member⟩
    obtain ⟨r, -, ⟨-, rfl⟩, -⟩ := exists_of_seen observed
    have found : (recorded f64 records).hists[(name, r.labels.text)]? =
        some (histOf f64 (seen (ops records name r.labels.pairs))) := by
      rw [hists_value, if_neg observed]
    rw [← histRows_samples name r.labels (exact.counts name r.labels.pairs)] at member
    exact List.mem_flatMap.mpr ⟨_, mem_ofName.mpr ⟨found, rfl⟩, member⟩

/-- Of a metric of the catalogue, what is written is what was recorded. -/
theorem mem_rowsOf_iff (catalogued : ∀ e ∈ extra, Catalogued e.name e.ty)
    (other : Catalogued name ty) (exact : Exact records extra) (sample : Sample) :
    sample ∈ (rowsOf f64 records extra name ty).map Row.sample ↔
      Recorded f64 records extra name ty sample := by
  rw [rowsOf, Recorded]
  split
  · exact mem_histRows_iff exact sample
  · rename_i scalar
    exact mem_valueRows_iff catalogued other scalar exact sample

end StormLb.Metrics
