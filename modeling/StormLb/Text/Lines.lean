import StormLb.Text.Str

/-!
# Bytes as lines

Bytes that end with the separator are the lines that `splitInclusive` gives, and
such lines, joined, are split again as they were.
-/

namespace StormLb.Text

/-- The separator, once, and at the end. -/
def IsLine (separator : UInt8) (line : List UInt8) : Prop :=
  ∃ body, separator ∉ body ∧ line = body ++ [separator]

variable {separator : UInt8} {line : List UInt8} {lines : List (List UInt8)}

theorem splitInclusive_append (isLine : IsLine separator line) (rest : List UInt8) :
    splitInclusive separator (line ++ rest) = line :: splitInclusive separator rest := by
  obtain ⟨body, absent, rfl⟩ := isLine
  induction body with
  | nil => rw [List.nil_append, List.singleton_append, splitInclusive, if_pos rfl]
  | cons b body ih =>
      obtain ⟨other, absent⟩ := List.ne_and_not_mem_of_not_mem_cons absent
      rw [List.cons_append, List.cons_append, splitInclusive, if_neg (Ne.symm other), ih absent]

theorem splitInclusive_flatten (isLine : ∀ line ∈ lines, IsLine separator line) :
    splitInclusive separator lines.flatten = lines := by
  induction lines with
  | nil => rfl
  | cons line lines ih =>
      obtain ⟨here, rest⟩ := List.forall_mem_cons.mp isLine
      rw [List.flatten_cons, splitInclusive_append here, ih rest]

/-- Bytes that end with the separator are made of lines. -/
theorem exists_lines (separator : UInt8) (bytes : List UInt8) :
    ∃ lines : List (List UInt8), bytes ++ [separator] = lines.flatten ∧ ∀ line ∈ lines, IsLine separator line := by
  induction bytes with
  | nil => exact ⟨[[separator]], rfl, List.forall_mem_singleton.mpr ⟨[], List.not_mem_nil, rfl⟩⟩
  | cons b bytes ih =>
      obtain ⟨lines, whole, isLine⟩ := ih
      by_cases same : b = separator
      · subst same
        refine ⟨[b] :: lines, ?_, List.forall_mem_cons.mpr ⟨⟨[], List.not_mem_nil, rfl⟩, isLine⟩⟩
        rw [List.cons_append, whole]
        rfl
      · cases lines with
        | nil => simp at whole
        | cons line lines =>
            obtain ⟨⟨body, absent, rfl⟩, rest⟩ := List.forall_mem_cons.mp isLine
            refine ⟨(b :: body ++ [separator]) :: lines, ?_, List.forall_mem_cons.mpr ⟨?_, rest⟩⟩
            · rw [List.cons_append, whole]
              rfl
            · refine ⟨b :: body, fun member => ?_, rfl⟩
              rcases List.mem_cons.mp member with equal | inside
              · exact same equal.symm
              · exact absent inside

/-- The lines of bytes that end with the separator. -/
theorem splitInclusive_spec (separator : UInt8) (bytes : List UInt8) :
    (splitInclusive separator (bytes ++ [separator])).flatten = bytes ++ [separator] ∧
      ∀ line ∈ splitInclusive separator (bytes ++ [separator]), IsLine separator line := by
  obtain ⟨lines, whole, isLine⟩ := exists_lines separator bytes
  rw [whole, splitInclusive_flatten isLine]
  exact ⟨rfl, isLine⟩

end StormLb.Text
