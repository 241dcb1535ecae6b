import StormLb.Metrics.Render

/-!
# Label texts

The text that stands for labels in a key is the one of the format, with `le` spliced in or
not, and the labels are read back from it.
-/

namespace StormLb.Metrics

open Exposition (isLabelName writeLabels writePair writePairs escaped escape)

theorem foldl_pushEscaped (v s : List Char) : v.foldl pushEscaped s = s ++ escaped v := by
  induction v generalizing s with
  | nil => exact (List.append_nil s).symm
  | cons c v ih =>
      have pushed : pushEscaped s c = s ++ escape c := by
        unfold pushEscaped escape
        split <;> simp_all
      rw [List.foldl_cons, ih, pushed, Exposition.escaped_cons, List.append_assoc]

theorem pushLabel_zero (s : List Char) (pair : List Char × List Char) :
    pushLabel s (pair, 0) = s ++ writePair pair := by
  simp [pushLabel, foldl_pushEscaped, writePair]

theorem pushLabel_succ (s : List Char) (pair : List Char × List Char) (i : Nat) :
    pushLabel s (pair, i + 1) = s ++ ',' :: writePair pair := by
  simp [pushLabel, foldl_pushEscaped, writePair]

theorem foldl_pushLabel (pairs : List (List Char × List Char)) (s : List Char) (i : Nat) :
    (pairs.zipIdx (i + 1)).foldl pushLabel s =
      s ++ pairs.flatMap fun pair => ',' :: writePair pair := by
  induction pairs generalizing s i with
  | nil => simp
  | cons pair pairs ih =>
      rw [List.zipIdx_cons, List.foldl_cons, pushLabel_succ, ih, List.flatMap_cons,
        List.append_assoc]

theorem writePairs_cons (pair : List Char × List Char) (pairs : List (List Char × List Char)) :
    writePairs (pair :: pairs) =
      writePair pair ++ pairs.flatMap fun pair => ',' :: writePair pair := by
  induction pairs generalizing pair with
  | nil => simp [writePairs]
  | cons next pairs ih =>
      rw [Exposition.writePairs_cons_cons, ih, List.flatMap_cons, List.cons_append]

/-- The text of a label set is the one of the format. -/
theorem labels_eq_writeLabels (pairs : List (List Char × List Char)) :
    labels pairs = writeLabels pairs := by
  cases pairs with
  | nil => rfl
  | cons pair pairs =>
      have body : (pair :: pairs).zipIdx.foldl pushLabel ['{'] =
          '{' :: writePairs (pair :: pairs) := by
        rw [List.zipIdx_cons, List.foldl_cons, pushLabel_zero, foldl_pushLabel, writePairs_cons,
          List.append_assoc, List.singleton_append]
      rw [labels, body]
      rfl

theorem writePairs_append {pairs : List (List Char × List Char)} (nonempty : pairs ≠ [])
    (last : List Char × List Char) :
    writePairs (pairs ++ [last]) = writePairs pairs ++ ',' :: writePair last := by
  cases pairs with
  | nil => exact absurd rfl nonempty
  | cons pair pairs =>
      rw [List.cons_append, writePairs_cons, writePairs_cons, List.flatMap_append,
        List.flatMap_singleton, List.append_assoc]

/-- Cutting the brace off and adding `le` is adding it to the set. -/
theorem withLe_labels (pairs : List (List Char × List Char)) {le : List Char}
    (plain : escaped le = le) :
    withLe (labels pairs) le = writeLabels (pairs ++ [(['l', 'e'], le)]) := by
  cases pairs with
  | nil => simp [withLe, labels, writeLabels, writePairs, writePair, plain]
  | cons pair pairs =>
      have opened : labels (pair :: pairs) = '{' :: writePairs (pair :: pairs) ++ ['}'] :=
        labels_eq_writeLabels _
      have cut : (labels (pair :: pairs)).dropLast = '{' :: writePairs (pair :: pairs) := by
        rw [opened, List.dropLast_concat]
      have occupied : (labels (pair :: pairs)).isEmpty = false := by
        rw [opened]
        rfl
      have added := writePairs_append (List.cons_ne_nil pair pairs) (['l', 'e'], le)
      rw [List.cons_append] at added
      rw [List.cons_append, writeLabels, added]
      · simp [withLe, occupied, cut, writePair, plain]
      · exact List.cons_ne_nil _ _

/-! ## Label sets -/

/-- Labels as the recorders give them: names of the format, each once, none of them `le`. -/
structure LabelSet where
  pairs : List (List Char × List Char)
  named : ∀ pair ∈ pairs, isLabelName pair.1 = true
  distinct : (pairs.map Prod.fst).Nodup
  reserved : ['l', 'e'] ∉ pairs.map Prod.fst

def LabelSet.text (ls : LabelSet) : List Char :=
  labels ls.pairs

theorem LabelSet.text_eq (ls : LabelSet) : ls.text = writeLabels ls.pairs :=
  labels_eq_writeLabels ls.pairs

theorem LabelSet.withLe_text (ls : LabelSet) {le : List Char} (plain : escaped le = le) :
    withLe ls.text le = writeLabels (ls.pairs ++ [(['l', 'e'], le)]) :=
  withLe_labels ls.pairs plain

/-- The labels of a text. -/
def decoded (l : List Char) : List (List Char × List Char) :=
  ((Exposition.readLabels l).map Prod.fst).getD []

theorem LabelSet.decoded_text (ls : LabelSet) : decoded ls.text = ls.pairs := by
  have read := @Exposition.readLabels_writeLabels [] ls.pairs ls.named nofun
  rw [List.append_nil] at read
  rw [decoded, text, labels_eq_writeLabels, read]
  rfl

theorem LabelSet.text_inj {ls ls' : LabelSet} : ls.text = ls'.text ↔ ls.pairs = ls'.pairs := by
  constructor
  · intro same
    rw [← ls.decoded_text, same, ls'.decoded_text]
  · intro same
    rw [text, same, ← text]

end StormLb.Metrics
