import StormLb.Metrics.Scrape

/-!
# The rows of a scrape

Each line of a scrape as a sample of the format, and the text of the scrape as the blocks
that these samples are in.
-/

namespace StormLb.Metrics

open Exposition (Row Block Sample decimal lineText escaped)

variable {f64 : F64} {records : List Record} {extra : List Extra} {name : String} {ty : Ty}

/-! ## Rows -/

def valueRow (series : Key × f64.Value) : Row :=
  { name := series.1.1.toList, labels := decoded series.1.2, token := f64.display series.2 }

def bucketRow (n : String) (l le : List Char) (v : UInt64) : Row :=
  { name := n.toList ++ "_bucket".toList, labels := decoded l ++ [(['l', 'e'], le)],
    token := displayU64 v }

def histRows (series : Key × Hist f64) : List Row :=
  let ((n, l), h) := series
  ((List.finRange buckets.length).map fun i => bucketRow n l (buckets.get i).text (h.buckets i)) ++
    [bucketRow n l "+Inf".toList h.count,
      { name := n.toList ++ "_sum".toList, labels := decoded l, token := f64.display h.sum },
      { name := n.toList ++ "_count".toList, labels := decoded l, token := displayU64 h.count }]

/-- The rows of one metric of the catalogue. -/
def rowsOf (f64 : F64) (records : List Record) (extra : List Extra) (name : String) (ty : Ty) :
    List Row :=
  if ty = .histogram then (ofName name (recorded f64 records).hists).flatMap histRows
  else (ofName name (mapOf (scraped f64 records extra) ty)).map valueRow

theorem mem_ofName {Value : Type} {series : Series Value} {key : Key} {v : Value} :
    (key, v) ∈ ofName name series ↔ series[key]? = some v ∧ key.1 = name := by
  rw [ofName, List.mem_filter, Std.ExtTreeMap.mem_toList_iff_getElem?_eq_some, decide_eq_true_eq]

/-! ## Lines -/

theorem writeln_valueRow (n : String) (ls : LabelSet) (v : f64.Value) :
    valueLine n ls.text v = (valueRow ((n, ls.text), v)).line ++ ['\n'] := by
  rw [valueLine, writeln, valueRow, Row.line]
  simp only [ls.decoded_text, ← ls.text_eq, List.append_assoc]

theorem bucket_text_plain : ∀ i : Fin buckets.length,
    escaped (buckets.get i).text = (buckets.get i).text := by
  decide +kernel

theorem writeln_bucketRow (n : String) (ls : LabelSet) {le : List Char} (plain : escaped le = le)
    (v : UInt64) :
    writeln (n.toList ++ "_bucket".toList ++ withLe ls.text le ++ ' ' :: displayU64 v) =
      (bucketRow n ls.text le v).line ++ ['\n'] := by
  rw [ls.withLe_text plain, writeln, bucketRow, Row.line]
  simp only [ls.decoded_text, List.append_assoc]

theorem histLines_eq (n : String) (ls : LabelSet) (h : Hist f64) :
    histLines n ls.text h = lineText ((histRows ((n, ls.text), h)).map Row.line) := by
  have series (suffix token : List Char) :
      writeln (n.toList ++ suffix ++ ls.text ++ ' ' :: token) =
        (Row.mk (n.toList ++ suffix) (decoded ls.text) token).line ++ ['\n'] := by
    rw [writeln, Row.line]
    simp only [ls.decoded_text, ← ls.text_eq, List.append_assoc]
  rw [histLines, series, series, writeln_bucketRow n ls (by decide)]
  simp only [writeln_bucketRow n ls (bucket_text_plain _), histRows, lineText, List.map_append,
    List.flatMap_append, List.map_map, List.flatMap_map]
  simp [List.append_assoc]

/-! ## Blocks -/

def Ty.kind : Ty → Exposition.Kind
  | .counter => .counter
  | .gauge => .gauge
  | .histogram => .histogram

def blockOf (f64 : F64) (records : List Record) (extra : List Extra) (entry : Described) : Block :=
  { name := entry.name.toList, help := entry.help.toList, kind := entry.ty.kind,
    rows := rowsOf f64 records extra entry.name entry.ty }

/-- The metrics that have a row. -/
def blocks (f64 : F64) (records : List Record) (extra : List Extra) : List Block :=
  (catalog.map (blockOf f64 records extra)).filter fun block => block.rows ≠ []

theorem scraped_row {entry : Key × f64.Value} (catalogued : ∀ e ∈ extra, Catalogued e.name e.ty)
    (other : Catalogued name ty)
    (member : entry ∈ ofName name (mapOf (scraped f64 records extra) ty)) :
    ∃ ls : LabelSet, entry = ((name, ls.text), entry.2) := by
  obtain ⟨found, named⟩ := mem_ofName.mp member
  obtain ⟨ls, text⟩ := scraped_label catalogued (named ▸ other) found
  exact ⟨ls, Prod.ext (Prod.ext named text) rfl⟩

theorem hists_row {entry : Key × Hist f64}
    (member : entry ∈ ofName name (recorded f64 records).hists) :
    ∃ ls : LabelSet, entry = ((name, ls.text), entry.2) := by
  obtain ⟨found, named⟩ := mem_ofName.mp member
  obtain ⟨ls, text⟩ := hists_label found
  exact ⟨ls, Prod.ext (Prod.ext named text) rfl⟩

theorem flatMap_valueLine (catalogued : ∀ e ∈ extra, Catalogued e.name e.ty)
    (other : Catalogued name ty) :
    ((ofName name (mapOf (scraped f64 records extra) ty)).flatMap
        fun ((n, l), v) => valueLine n l v) =
      lineText (((ofName name (mapOf (scraped f64 records extra) ty)).map valueRow).map Row.line) := by
  rw [lineText, List.flatMap_map, List.flatMap_map]
  refine List.flatMap_congr fun entry member => ?_
  obtain ⟨ls, shape⟩ := scraped_row catalogued other member
  rw [shape]
  exact writeln_valueRow name ls entry.2

theorem flatMap_histLines :
    ((ofName name (recorded f64 records).hists).flatMap fun ((n, l), h) => histLines n l h) =
      lineText (((ofName name (recorded f64 records).hists).flatMap histRows).map Row.line) := by
  rw [lineText, List.map_flatMap, List.flatMap_assoc]
  refine List.flatMap_congr fun entry member => ?_
  obtain ⟨ls, shape⟩ := hists_row member
  rw [shape]
  exact histLines_eq name ls entry.2

theorem writeln_comment {opener keyword : List Char}
    (mark : opener = '#' :: ' ' :: (keyword ++ [' '])) (name text : List Char) :
    writeln (opener ++ name ++ ' ' :: text) =
      Exposition.commentLine keyword name text ++ ['\n'] := by
  simp [writeln, mark, Exposition.commentLine]

theorem Ty.text_kind (ty : Ty) : ty.text = ty.kind.text := by
  cases ty <;> rfl

theorem lineText_isEmpty (rows : List Row) :
    (lineText (rows.map Row.line)).isEmpty = true ↔ rows = [] := by
  cases rows with
  | nil => exact iff_of_true rfl rfl
  | cons row rows => simp [lineText]

/-- What is written of a metric is its block, if it has a row. -/
theorem renderOne_eq (catalogued : ∀ e ∈ extra, Catalogued e.name e.ty) {entry : Described}
    (member : entry ∈ catalog) :
    renderOne (scraped f64 records extra).1 (scraped f64 records extra).2
        (recorded f64 records).hists entry =
      if (blockOf f64 records extra entry).rows = [] then []
      else lineText (blockOf f64 records extra entry).lines := by
  have help : "# HELP ".toList = '#' :: ' ' :: ("HELP".toList ++ [' ']) := by decide
  have type : "# TYPE ".toList = '#' :: ' ' :: ("TYPE".toList ++ [' ']) := by decide
  have headed (body : List Char) (rows : List Row) (written : body = lineText (rows.map Row.line)) :
      (if body.isEmpty then []
        else
          writeln ("# HELP ".toList ++ entry.name.toList ++ ' ' :: entry.help.toList) ++
            writeln ("# TYPE ".toList ++ entry.name.toList ++ ' ' :: entry.ty.text.toList) ++ body) =
        if rows = [] then []
        else lineText (Exposition.helpLine entry.name.toList entry.help.toList ::
          Exposition.typeLine entry.name.toList entry.ty.kind :: rows.map Row.line) := by
    rw [written]
    by_cases empty : rows = []
    · rw [if_pos empty, if_pos ((lineText_isEmpty rows).mpr empty)]
    · rw [if_neg empty, if_neg (mt (lineText_isEmpty rows).mp empty), entry.ty.text_kind,
        writeln_comment help, writeln_comment type, List.append_assoc]
      rfl
  have other : Catalogued entry.name entry.ty := ⟨entry, member, rfl, rfl⟩
  refine headed _ (rowsOf f64 records extra entry.name entry.ty) ?_
  cases ty : entry.ty with
  | counter => exact flatMap_valueLine catalogued (ty ▸ other)
  | gauge => exact flatMap_valueLine catalogued (ty ▸ other)
  | histogram => exact flatMap_histLines

theorem flatMap_blockOf (entries : List Described) :
    (entries.flatMap fun entry =>
        if (blockOf f64 records extra entry).rows = [] then []
        else lineText (blockOf f64 records extra entry).lines) =
      lineText (((entries.map (blockOf f64 records extra)).filter fun block =>
        block.rows ≠ []).flatMap Block.lines) := by
  induction entries with
  | nil => rfl
  | cons entry entries ih =>
      rw [List.flatMap_cons, List.map_cons, List.filter_cons, ih]
      by_cases empty : (blockOf f64 records extra entry).rows = []
      · rw [if_pos empty, if_neg (by simpa using empty), List.nil_append]
      · rw [if_neg empty, if_pos (by simpa using empty), List.flatMap_cons]
        exact List.flatMap_append.symm

/-- The text of a scrape is its blocks. -/
theorem render_eq (catalogued : ∀ e ∈ extra, Catalogued e.name e.ty) :
    render (recorded f64 records) (extra.map (Extra.series f64)) =
      lineText ((blocks f64 records extra).flatMap Block.lines) := by
  rw [render_recorded, blocks, ← flatMap_blockOf]
  exact List.flatMap_congr fun entry member => renderOne_eq catalogued member

/-! ## Well-formed blocks -/

/-- The characters of a text that is written out are at hand: nothing has to be decoded. -/
theorem holds_ofList (p : List Char → Bool) {chars : List Char} (holds : p chars = true) :
    p (String.ofList chars).toList = true := by
  rw [String.toList_ofList]
  exact holds

theorem catalog_metric : ∀ entry ∈ catalog, Exposition.isMetricName entry.name.toList = true := by
  simp only [catalog, List.forall_mem_cons]
  and_intros
  all_goals first
    | exact holds_ofList Exposition.isMetricName (by decide +kernel)
    | exact fun _ member => absurd member List.not_mem_nil

set_option maxRecDepth 2000 in
theorem catalog_help : ∀ entry ∈ catalog, Exposition.isPlainHelp entry.help.toList = true := by
  simp only [catalog, List.forall_mem_cons]
  and_intros
  all_goals first
    | exact holds_ofList Exposition.isPlainHelp (by decide +kernel)
    | exact fun _ member => absurd member List.not_mem_nil

theorem isMetricName_append {name suffix : List Char}
    (metric : Exposition.isMetricName name = true)
    (chars : suffix.all Exposition.isNameChar = true) :
    Exposition.isMetricName (name ++ suffix) = true := by
  obtain ⟨all, c, tail, rfl⟩ := Exposition.isMetricName_spec metric
  unfold Exposition.isMetricName at metric ⊢
  rw [List.all_append, chars, Bool.and_true]
  exact metric

theorem displayU64_eq (v : UInt64) : displayU64 v = decimal v.toNat :=
  rfl

theorem displayU64_float (v : UInt64) : Exposition.isFloat (displayU64 v) = true := by
  rw [displayU64_eq]
  exact Exposition.isFloat_decimal _

/-- A row with the labels of a set, or with `le` after them. -/
theorem LabelSet.validRow (ls : LabelSet) {name token : List Char}
    (metric : Exposition.isMetricName name = true) (float : Exposition.isFloat token = true) :
    (Row.mk name ls.pairs token).Valid :=
  { metric, float, named := ls.named, distinct := ls.distinct }

theorem LabelSet.validBucket (ls : LabelSet) {name token : List Char} (le : List Char)
    (metric : Exposition.isMetricName name = true) (float : Exposition.isFloat token = true) :
    (Row.mk name (ls.pairs ++ [(['l', 'e'], le)]) token).Valid where
  metric := metric
  float := float
  named pair member := by
    rcases List.mem_append.mp member with own | last
    · exact ls.named pair own
    · have le : Exposition.isLabelName ['l', 'e'] = true := by decide
      rw [List.mem_singleton.mp last]
      exact le
  distinct := by
    rw [List.map_append]
    refine List.nodup_append.mpr ⟨ls.distinct, List.nodup_singleton _, ?_⟩
    intro name own name' last same
    have le : name = ['l', 'e'] := same.trans (List.mem_singleton.mp last)
    exact ls.reserved (le ▸ own)

theorem mem_histRows {n : String} {ls : LabelSet} {h : Hist f64} {row : Row}
    (member : row ∈ histRows ((n, ls.text), h)) :
    (∃ le v, row = bucketRow n ls.text le v) ∨
      row = ⟨n.toList ++ "_sum".toList, ls.pairs, f64.display h.sum⟩ ∨
        row = ⟨n.toList ++ "_count".toList, ls.pairs, displayU64 h.count⟩ := by
  rw [histRows, ls.decoded_text] at member
  rcases List.mem_append.mp member with bucket | others
  · obtain ⟨i, -, rfl⟩ := List.mem_map.mp bucket
    exact .inl ⟨_, _, rfl⟩
  rcases List.mem_cons.mp others with rfl | others
  · exact .inl ⟨_, _, rfl⟩
  rcases List.mem_cons.mp others with rfl | others
  · exact .inr (.inl rfl)
  · exact .inr (.inr (List.mem_singleton.mp others))

theorem histRows_valid {n : String} (metric : Exposition.isMetricName n.toList = true)
    {ls : LabelSet} {h : Hist f64} {row : Row} (member : row ∈ histRows ((n, ls.text), h)) :
    row.Valid := by
  rcases mem_histRows member with ⟨le, v, rfl⟩ | rfl | rfl
  · rw [bucketRow, ls.decoded_text]
    exact ls.validBucket le (isMetricName_append metric (by decide)) (displayU64_float v)
  · exact ls.validRow (isMetricName_append metric (by decide)) (f64.display_float _)
  · exact ls.validRow (isMetricName_append metric (by decide)) (displayU64_float _)

/-- The rows of a metric are of its kind. -/
theorem rowsOf_valid (catalogued : ∀ e ∈ extra, Catalogued e.name e.ty)
    (other : Catalogued name ty) (metric : Exposition.isMetricName name.toList = true)
    {row : Row} (member : row ∈ rowsOf f64 records extra name ty) :
    row.Valid ∧ ∀ help,
      (Exposition.Family.mk name.toList help (some ty.kind) []).owns row.name = true := by
  rw [rowsOf] at member
  split at member
  · rename_i histogram
    obtain ⟨entry, inside, member⟩ := List.mem_flatMap.mp member
    obtain ⟨ls, shape⟩ := hists_row inside
    rw [shape] at member
    refine ⟨histRows_valid metric member, fun help => ?_⟩
    rw [histogram]
    rcases mem_histRows member with ⟨le, v, rfl⟩ | rfl | rfl
    · exact decide_eq_true (.inl rfl)
    · exact decide_eq_true (.inr (.inl rfl))
    · exact decide_eq_true (.inr (.inr rfl))
  · obtain ⟨entry, inside, rfl⟩ := List.mem_map.mp member
    obtain ⟨ls, shape⟩ := scraped_row catalogued other inside
    rw [shape, valueRow, ls.decoded_text]
    refine ⟨ls.validRow metric (f64.display_float _), fun help => ?_⟩
    cases ty with
    | counter => exact decide_eq_true rfl
    | gauge => exact decide_eq_true rfl
    | histogram => contradiction

theorem blocks_valid (catalogued : ∀ e ∈ extra, Catalogued e.name e.ty) :
    ∀ block ∈ blocks f64 records extra, block.Valid := by
  intro block member
  obtain ⟨entry, inside, rfl⟩ := List.mem_map.mp (List.mem_filter.mp member).1
  have metric := catalog_metric entry inside
  have plain := Exposition.PlainHelp.of_isPlainHelp (catalog_help entry inside)
  have rows (row : Row) (written : row ∈ rowsOf f64 records extra entry.name entry.ty) :=
    rowsOf_valid catalogued ⟨entry, inside, rfl, rfl⟩ metric written
  exact
    { metric, plain
      rows := fun row written => (rows row written).1
      owned := fun row written => (rows row written).2 (some entry.help.toList) }

theorem blocks_names_nodup : ((blocks f64 records extra).map Block.name).Nodup := by
  have sub : ((blocks f64 records extra).map Block.name).Sublist
      ((catalog.map (blockOf f64 records extra)).map Block.name) :=
    List.filter_sublist.map _
  have names : (catalog.map (blockOf f64 records extra)).map Block.name =
      (catalog.map Described.name).map String.toList := by
    rw [List.map_map, List.map_map]
    rfl
  have injective : Function.Injective String.toList := fun _ _ same => String.toList_inj.mp same
  rw [names] at sub
  exact sub.nodup (catalog_names_nodup.map injective)

/-- A scrape is read as the families of its blocks. -/
theorem parse_render (catalogued : ∀ e ∈ extra, Catalogued e.name e.ty) :
    Exposition.parse (render (recorded f64 records) (extra.map (Extra.series f64))) =
      some ((blocks f64 records extra).map Block.family) := by
  rw [render_eq catalogued]
  exact Block.parse_lineText (blocks_valid catalogued) blocks_names_nodup

end StormLb.Metrics
