import StormLb.Text.WrittenExposition

/-!
# Blocks of an exposition

A metric as it is written, its HELP and TYPE and a line for each sample, and that a text
made of such blocks is read as their families.
-/

namespace StormLb.Exposition

variable {name text token : List Char}

/-! ## Lines -/

def lineText (lines : List (List Char)) : List Char :=
  lines.flatMap fun line => line ++ ['\n']

theorem mapM_some_map {α β γ : Type} {f : β → Option γ} {g : α → β} {h : α → γ} {items : List α}
    (each : ∀ item ∈ items, f (g item) = some (h item)) :
    (items.map g).mapM f = some (items.map h) := by
  induction items with
  | nil => rfl
  | cons item items ih =>
      obtain ⟨here, later⟩ := List.forall_mem_cons.mp each
      rw [List.map_cons, List.mapM_cons, here, ih later]
      rfl

theorem splitOn_lineText {lines : List (List Char)} (single : ∀ line ∈ lines, '\n' ∉ line) :
    (lineText lines).splitOn '\n' = lines ++ [[]] := by
  induction lines with
  | nil => rfl
  | cons line lines ih =>
      obtain ⟨here, later⟩ := List.forall_mem_cons.mp single
      have shape : lineText (line :: lines) = line ++ '\n' :: lineText lines := by
        simp [lineText]
      rw [shape, List.splitOn_append_cons_self_of_not_mem here, ih later, List.cons_append]

theorem textLines_lineText {lines : List (List Char)} (single : ∀ line ∈ lines, '\n' ∉ line) :
    textLines (lineText lines) = some lines := by
  unfold textLines
  simp only [splitOn_lineText single]
  rw [if_pos List.getLast?_concat, List.dropLast_concat]

/-! ## Samples -/

theorem isMetricName_spec (metric : isMetricName name = true) :
    (∀ c ∈ name, isNameChar c = true) ∧ ∃ c tail, name = c :: tail :=
  name_spec metric

theorem isBlank_of_nameChar {c : Char} (nameChar : isNameChar c = true) : isBlank c = false :=
  isBlank_of_kind (by decide) (by decide) nameChar

theorem isBlank_of_floatChar {c : Char} (floatChar : isFloatChar c = true) : isBlank c = false :=
  isBlank_of_kind (by decide) (by decide) floatChar

theorem isFloat_spec (float : isFloat token = true) :
    (∀ c ∈ token, isFloatChar c = true) ∧ ∃ c tail, token = c :: tail := by
  unfold isFloat at float
  obtain ⟨chars, numeral⟩ := of_decide_eq_true float
  refine ⟨fun c member => List.all_eq_true.mp chars c member, ?_⟩
  cases token with
  | nil => exact absurd numeral (by decide)
  | cons c tail => exact ⟨c, tail, rfl⟩

theorem skipBlanks_float (float : isFloat token = true) : skipBlanks token = token := by
  obtain ⟨chars, c, tail, rfl⟩ := isFloat_spec float
  exact skipBlanks_cons (isBlank_of_floatChar (chars c List.mem_cons_self))

/-- A sample as it is written, its value by a text. -/
structure Row where
  name : List Char
  labels : List (List Char × List Char)
  token : List Char
  deriving DecidableEq

namespace Row

variable {row : Row}

def line (row : Row) : List Char :=
  row.name ++ (writeLabels row.labels ++ ' ' :: row.token)

def sample (row : Row) : Sample :=
  { name := row.name, labels := row.labels,
    value := (readNumber row.token).getD (.other row.token) }

structure Valid (row : Row) : Prop where
  metric : isMetricName row.name = true
  named : ∀ pair ∈ row.labels, isLabelName pair.1 = true
  distinct : (row.labels.map Prod.fst).Nodup
  float : isFloat row.token = true

theorem Valid.readNumber (valid : row.Valid) : readNumber row.token = some row.sample.value := by
  unfold sample Exposition.readNumber
  rw [if_pos valid.float]
  split <;> rfl

/-- After the name: the labels, and then the value. -/
theorem Valid.readLabels (valid : row.Valid) :
    ∃ rest, readLabels (skipBlanks (writeLabels row.labels ++ ' ' :: row.token)) =
      some (row.labels, rest) ∧ skipBlanks rest = row.token := by
  have token : skipBlanks (' ' :: row.token) = row.token :=
    (List.dropWhile_cons_of_pos (by decide)).trans (skipBlanks_float valid.float)
  obtain ⟨chars, c, tail, shape⟩ := isFloat_spec valid.float
  have apart : row.token.head? ≠ some '{' := by
    rw [shape, List.head?_cons]
    intro brace
    exact absurd (chars c (shape ▸ List.mem_cons_self)) (Option.some.inj brace ▸ by decide)
  have space : (' ' :: row.token).head? ≠ some '{' := by
    rw [List.head?_cons]
    decide
  cases labels : row.labels with
  | nil =>
      refine ⟨row.token, ?_, skipBlanks_float valid.float⟩
      rw [writeLabels, List.nil_append, token]
      exact @readLabels_writeLabels row.token [] (fun pair member => absurd member List.not_mem_nil) apart
  | cons pair pairs =>
      refine ⟨' ' :: row.token, ?_, token⟩
      rw [skipBlanks_writeLabels_cons]
      exact readLabels_writeLabels (labels ▸ valid.named) space

/-- What follows the name of a sample is no part of it. -/
theorem exists_stop (row : Row) :
    ∃ c rest, writeLabels row.labels ++ ' ' :: row.token = c :: rest ∧ isNameChar c = false := by
  cases row.labels with
  | nil => exact ⟨' ', row.token, rfl, by decide⟩
  | cons pair pairs =>
      exact ⟨'{', writePairs (pair :: pairs) ++ ['}'] ++ ' ' :: row.token, rfl, by decide⟩

theorem readSample_line (valid : row.Valid) : readSample row.line = some row.sample := by
  obtain ⟨chars, -⟩ := isMetricName_spec valid.metric
  obtain ⟨c, after, stop, apart⟩ := row.exists_stop
  obtain ⟨rest, labels, token⟩ := valid.readLabels
  have solid : ∀ d ∈ row.token, (!isBlank d) = true := fun d member => by
    rw [isBlank_of_floatChar ((isFloat_spec valid.float).1 d member)]
    rfl
  have value : row.token.takeWhile (!isBlank ·) = row.token := List.takeWhile_eq_self_iff.mpr solid
  have done : row.token.dropWhile (!isBlank ·) = [] := List.dropWhile_eq_nil_iff.mpr solid
  have front : row.line.takeWhile isNameChar = row.name := by
    rw [line, stop, takeWhile_append_stop chars apart]
  have back : row.line.dropWhile isNameChar = writeLabels row.labels ++ ' ' :: row.token := by
    rw [line, stop, dropWhile_append_stop chars apart]
  unfold readSample
  simp only [front, back, labels, token, value, done, valid.readNumber, valid.metric, if_true,
    Option.bind_eq_bind, Option.bind_some]
  rw [if_pos ⟨by decide, valid.distinct⟩]
  rfl

theorem readLine_line (valid : row.Valid) : readLine row.line = some (.sample row.sample) := by
  obtain ⟨chars, c, tail, shape⟩ := isMetricName_spec valid.metric
  have nameChar : isNameChar c = true := chars c (shape ▸ List.mem_cons_self)
  have opened : row.line = c :: (tail ++ (writeLabels row.labels ++ ' ' :: row.token)) := by
    rw [line, shape, List.cons_append]
  have start : skipBlanks row.line = row.line := by
    rw [opened, skipBlanks_cons (isBlank_of_nameChar nameChar)]
  unfold readLine
  rw [start]
  split
  · rename_i empty
    exact absurd (opened.symm.trans empty) (List.cons_ne_nil _ _)
  · rename_i hash
    obtain ⟨rfl, -⟩ := List.cons.inj (opened.symm.trans hash)
    exact absurd nameChar (by decide)
  · rw [readSample_line valid, Option.map_some]

theorem newline_not_mem_line (valid : row.Valid) : '\n' ∉ row.line := by
  have metric : '\n' ∉ row.name := fun member =>
    absurd ((isMetricName_spec valid.metric).1 _ member) (by decide)
  have labels : '\n' ∉ writeLabels row.labels := newline_not_mem_writeLabels valid.named
  have float : '\n' ∉ row.token := fun member =>
    absurd ((isFloat_spec valid.float).1 _ member) (by decide)
  simp [line, metric, labels, float]

end Row

/-! ## HELP and TYPE -/

def commentLine (keyword name text : List Char) : List Char :=
  '#' :: ' ' :: (keyword ++ ' ' :: (name ++ ' ' :: text))

def helpLine (name text : List Char) : List Char :=
  commentLine "HELP".toList name text

def typeLine (name : List Char) (kind : Kind) : List Char :=
  commentLine "TYPE".toList name kind.text.toList

/-- A HELP text that is written as it is. -/
structure PlainHelp (text : List Char) : Prop where
  single : '\n' ∉ text
  unescaped : '\\' ∉ text
  start : skipBlanks text = text

def isPlainHelp (text : List Char) : Bool :=
  text.all (fun c => c ≠ '\n' ∧ c ≠ '\\') && (text.head?.map fun c => !isBlank c).getD true

theorem PlainHelp.of_isPlainHelp (plain : isPlainHelp text = true) : PlainHelp text := by
  obtain ⟨chars, head⟩ := Bool.and_eq_true_iff.mp plain
  have apart (c : Char) (member : c ∈ text) : c ≠ '\n' ∧ c ≠ '\\' :=
    of_decide_eq_true (List.all_eq_true.mp chars c member)
  refine ⟨fun member => (apart _ member).1 rfl, fun member => (apart _ member).2 rfl, ?_⟩
  cases text with
  | nil => rfl
  | cons c text => exact skipBlanks_cons (Bool.not_eq_true' _ ▸ head)

theorem readHelp_plain (unescaped : '\\' ∉ text) : readHelp text = some text := by
  induction text with
  | nil => rw [readHelp]
  | cons c text ih =>
      obtain ⟨other, rest⟩ := List.ne_and_not_mem_of_not_mem_cons unescaped
      rw [readHelp.eq_def]
      simp only [if_neg (Ne.symm other), ih rest, Option.map_some]

/-- The keyword of a comment, the name after it, and the rest. -/
theorem readComment_keyword {keyword : List Char} (solid : ∀ c ∈ keyword, (!isBlank c) = true)
    (keyword_ne_nil : keyword ≠ []) (metric : isMetricName name = true)
    (start : skipBlanks text = text) :
    readComment (' ' :: (keyword ++ ' ' :: (name ++ ' ' :: text))) =
      if keyword = "HELP".toList then
        if isMetricName name then (readHelp text).map (.help name) else none
      else if keyword = "TYPE".toList then
        if isMetricName name then (readKind (text.takeWhile (!isBlank ·))).map (.type name)
        else none
      else some .comment := by
  obtain ⟨chars, c, tail, shape⟩ := isMetricName_spec metric
  have nameSolid : ∀ d ∈ name, (!isBlank d) = true := fun d member => by
    rw [isBlank_of_nameChar (chars d member)]
    rfl
  have skipSpace (rest : List Char) : skipBlanks (' ' :: rest) = skipBlanks rest :=
    List.dropWhile_cons_of_pos (by decide)
  have skipKeyword : skipBlanks (keyword ++ ' ' :: (name ++ ' ' :: text)) =
      keyword ++ ' ' :: (name ++ ' ' :: text) := by
    cases keyword with
    | nil => exact absurd rfl keyword_ne_nil
    | cons d keyword =>
        exact skipBlanks_cons (Bool.not_eq_true' _ ▸ solid d List.mem_cons_self)
  have skipName : skipBlanks (name ++ ' ' :: text) = name ++ ' ' :: text := by
    rw [shape, List.cons_append]
    exact skipBlanks_cons (isBlank_of_nameChar (chars c (shape ▸ List.mem_cons_self)))
  have blank : (!isBlank ' ') = false := by decide
  unfold readComment
  simp only [skipSpace, skipKeyword, takeWhile_append_stop solid blank,
    dropWhile_append_stop solid blank, skipName, takeWhile_append_stop nameSolid blank,
    dropWhile_append_stop nameSolid blank, start]

theorem readLine_hash (rest : List Char) : readLine ('#' :: rest) = readComment rest := by
  unfold readLine
  rw [skipBlanks_cons (by decide)]
  rfl

theorem newline_not_mem_commentLine {keyword : List Char} (keywordSingle : '\n' ∉ keyword)
    (metric : isMetricName name = true) (single : '\n' ∉ text) :
    '\n' ∉ commentLine keyword name text := by
  have name : '\n' ∉ name := fun member =>
    absurd ((isMetricName_spec metric).1 _ member) (by decide)
  simp [commentLine, keywordSingle, name, single]

theorem readLine_helpLine (metric : isMetricName name = true) (plain : PlainHelp text) :
    readLine (helpLine name text) = some (.help name text) := by
  rw [helpLine, commentLine, readLine_hash,
    readComment_keyword (List.all_eq_true.mp (by decide)) (by decide) metric plain.start, if_pos rfl,
    if_pos metric, readHelp_plain plain.unescaped, Option.map_some]

theorem Kind.text_solid (kind : Kind) :
    kind.text.toList.takeWhile (!isBlank ·) = kind.text.toList := by
  cases kind <;> rfl

theorem readKind_text (kind : Kind) : readKind kind.text.toList = some kind := by
  cases kind <;> rfl

theorem readLine_typeLine (metric : isMetricName name = true) (kind : Kind) :
    readLine (typeLine name kind) = some (.type name kind) := by
  have start : skipBlanks kind.text.toList = kind.text.toList := by
    cases kind <;> rfl
  rw [typeLine, commentLine, readLine_hash,
    readComment_keyword (List.all_eq_true.mp (by decide)) (by decide) metric start,
    if_neg (by decide), if_pos rfl, if_pos metric, kind.text_solid, readKind_text, Option.map_some]

/-! ## Blocks -/

structure Block where
  name : List Char
  help : List Char
  kind : Kind
  rows : List Row

namespace Block

variable {block : Block} {blocks : List Block}

def lines (block : Block) : List (List Char) :=
  helpLine block.name block.help :: typeLine block.name block.kind :: block.rows.map Row.line

/-- The family of a block, of some of its samples. -/
def familyOf (block : Block) (samples : List Sample) : Family :=
  { name := block.name, help := some block.help, kind := some block.kind, samples }

def family (block : Block) : Family :=
  block.familyOf (block.rows.map Row.sample)

structure Valid (block : Block) : Prop where
  metric : isMetricName block.name = true
  plain : PlainHelp block.help
  rows : ∀ row ∈ block.rows, row.Valid
  owned : ∀ row ∈ block.rows, (block.familyOf []).owns row.name = true

/-- The lines of a block, as they are read. -/
def read (block : Block) : List Line :=
  .help block.name block.help :: .type block.name block.kind ::
    block.rows.map fun row => .sample row.sample

theorem Valid.readLines (valid : block.Valid) : block.lines.mapM readLine = some block.read := by
  have samples : (block.rows.map Row.line).mapM readLine =
      some (block.rows.map fun row => .sample row.sample) :=
    mapM_some_map fun row member => Row.readLine_line (valid.rows row member)
  rw [lines, List.mapM_cons, readLine_helpLine valid.metric valid.plain, List.mapM_cons,
    readLine_typeLine valid.metric, samples]
  rfl

theorem Valid.newline_not_mem (valid : block.Valid) : ∀ line ∈ block.lines, '\n' ∉ line := by
  intro line member
  rcases List.mem_cons.mp member with rfl | member
  · exact newline_not_mem_commentLine (by decide) valid.metric valid.plain.single
  rcases List.mem_cons.mp member with rfl | member
  · have kind : '\n' ∉ block.kind.text.toList := by cases block.kind <;> decide
    exact newline_not_mem_commentLine (by decide) valid.metric kind
  · obtain ⟨row, inside, rfl⟩ := List.mem_map.mp member
    exact Row.newline_not_mem_line (valid.rows row inside)

theorem readLines_flatMap (valid : ∀ block ∈ blocks, block.Valid) :
    (blocks.flatMap lines).mapM readLine = some (blocks.flatMap read) := by
  induction blocks with
  | nil => rfl
  | cons block blocks ih =>
      obtain ⟨here, later⟩ := List.forall_mem_cons.mp valid
      rw [List.flatMap_cons, List.mapM_append, here.readLines, ih later]
      rfl

/-- A sample joins the family that is open. -/
theorem addLine_rows {rows : List Row} {families : List Family} (samples : List Sample)
    (owned : ∀ row ∈ rows, (block.familyOf []).owns row.name = true) :
    (rows.map fun row => Line.sample row.sample).foldlM Family.addLine
        (block.familyOf samples :: families) =
      some (block.familyOf (samples ++ rows.map Row.sample) :: families) := by
  induction rows generalizing samples with
  | nil => simp
  | cons row rows ih =>
      obtain ⟨here, later⟩ := List.forall_mem_cons.mp owned
      have joined : Family.addLine (block.familyOf samples :: families) (.sample row.sample) =
          some (block.familyOf (samples ++ [row.sample]) :: families) := by
        have owns : (block.familyOf samples).owns row.sample.name = true := here
        rw [Family.addLine, if_pos owns]
        rfl
      rw [List.map_cons, List.foldlM_cons, joined]
      exact (ih _ later).trans (by rw [List.append_assoc, List.map_cons]; rfl)

/-- HELP opens a family that no line was of before. -/
theorem addLine_help {families : List Family} (fresh : block.name ∉ families.map Family.name) :
    Family.addLine families (.help block.name block.help) =
      some ({ block.familyOf [] with kind := none } :: families) := by
  cases families with
  | nil => rfl
  | cons family families =>
      have other : ¬ (family.name = block.name ∧ family.help = none ∧ family.samples = []) :=
        fun same => fresh (same.1 ▸ List.mem_cons_self)
      rw [Family.addLine, if_neg other, Family.start, if_neg fresh]
      rfl

theorem addLine_read {families : List Family} (valid : block.Valid)
    (fresh : block.name ∉ families.map Family.name) :
    block.read.foldlM Family.addLine families = some (block.family :: families) := by
  have typed : Family.addLine ({ block.familyOf [] with kind := none } :: families)
      (.type block.name block.kind) = some (block.familyOf [] :: families) := by
    rw [Family.addLine, if_pos ⟨rfl, rfl, rfl⟩]
    rfl
  rw [read, List.foldlM_cons, addLine_help fresh]
  exact (congrArg (Option.bind · _) typed).trans (addLine_rows [] valid.owned)

theorem addLine_flatMap {families : List Family} (valid : ∀ block ∈ blocks, block.Valid)
    (distinct : (blocks.map Block.name).Nodup)
    (fresh : ∀ block ∈ blocks, block.name ∉ families.map Family.name) :
    (blocks.flatMap read).foldlM Family.addLine families =
      some ((blocks.map family).reverse ++ families) := by
  induction blocks generalizing families with
  | nil => rfl
  | cons block blocks ih =>
      obtain ⟨here, later⟩ := List.forall_mem_cons.mp valid
      obtain ⟨apart, distinct⟩ := List.nodup_cons.mp distinct
      obtain ⟨freshHere, freshLater⟩ := List.forall_mem_cons.mp fresh
      have stillFresh : ∀ other ∈ blocks,
          other.name ∉ (block.family :: families).map Family.name := by
        intro other member inside
        rcases List.mem_cons.mp inside with same | inside
        · exact apart (List.mem_map.mpr ⟨other, member, same⟩)
        · exact freshLater other member inside
      rw [List.flatMap_cons, List.foldlM_append, addLine_read here freshHere]
      exact (ih later distinct stillFresh).trans (by simp)

/-- A text of blocks is read as their families, in their order. -/
theorem parse_lineText (valid : ∀ block ∈ blocks, block.Valid)
    (distinct : (blocks.map Block.name).Nodup) :
    parse (lineText (blocks.flatMap lines)) = some (blocks.map family) := by
  have single : ∀ line ∈ blocks.flatMap lines, '\n' ∉ line := fun line member => by
    obtain ⟨block, inside, member⟩ := List.mem_flatMap.mp member
    exact (valid block inside).newline_not_mem line member
  have added := @addLine_flatMap blocks [] valid distinct fun _ _ => List.not_mem_nil
  unfold parse
  rw [textLines_lineText single]
  simp only [Option.bind_eq_bind, Option.bind_some, readLines_flatMap valid, added,
    List.append_nil, List.reverse_reverse]
  rfl

end Block

end StormLb.Exposition
