import StormLb.Text.Str

/-!
# Trimming and splitting known text

What `trim`, `splitOnce` and `rsplitOnce` make of a text whose parts are known.
-/

namespace StormLb.Text

/-! ## Stripping either end -/

section

variable {α : Type} {p : α → Bool}

/-- Without the stretches at both ends. -/
def stripped (p : α → Bool) (text : List α) : List α :=
  (text.dropWhile p).rdropWhile p

variable {before after text : List α} {c : α}

theorem dropWhile_append_cons (solid : p c = false) :
    (before ++ c :: after).dropWhile p = before.dropWhile p ++ c :: after := by
  induction before with
  | nil =>
      rw [List.nil_append, List.dropWhile_cons_of_neg (Bool.not_eq_true _ ▸ solid)]
      rfl
  | cons d before ih =>
      cases white : p d with
      | true => rw [List.cons_append, List.dropWhile_cons_of_pos white, ih,
          List.dropWhile_cons_of_pos white]
      | false =>
          have other : ¬ p d = true := Bool.not_eq_true _ ▸ white
          rw [List.cons_append, List.dropWhile_cons_of_neg other, List.dropWhile_cons_of_neg other]
          rfl

theorem rdropWhile_append_cons (solid : p c = false) :
    (before ++ c :: after).rdropWhile p = before ++ c :: after.rdropWhile p := by
  rw [List.rdropWhile, List.reverse_append, List.reverse_cons, List.append_assoc,
    List.singleton_append, dropWhile_append_cons solid]
  simp [List.rdropWhile]

theorem rdropWhile_append_of_pos (all : ∀ d ∈ after, p d = true) :
    (before ++ after).rdropWhile p = before.rdropWhile p := by
  rw [List.rdropWhile, List.reverse_append, List.rdropWhile,
    List.dropWhile_append_of_pos fun d member => all d (List.mem_reverse.mp member)]

theorem stripped_append_cons (solid : p c = false) :
    stripped p (before ++ c :: after) = before.dropWhile p ++ c :: after.rdropWhile p := by
  rw [stripped, dropWhile_append_cons solid, rdropWhile_append_cons solid]

theorem stripped_eq_nil (all : ∀ d ∈ text, p d = true) : stripped p text = [] := by
  rw [stripped, List.dropWhile_eq_nil_iff.mpr all]
  rfl

/-- All of one kind, or split at the first of another. -/
theorem forall_or_split (p : α → Bool) (text : List α) :
    (∀ d ∈ text, p d = true) ∨
      ∃ first c last, text = first ++ c :: last ∧ (∀ d ∈ first, p d = true) ∧ p c = false := by
  induction text with
  | nil => exact .inl fun d member => absurd member List.not_mem_nil
  | cons d text ih =>
      cases here : p d with
      | false => exact .inr ⟨[], d, text, rfl, fun d member => absurd member List.not_mem_nil, here⟩
      | true =>
          rcases ih with all | ⟨first, c, last, rfl, before, solid⟩
          · exact .inl (List.forall_mem_cons.mpr ⟨here, all⟩)
          · exact .inr ⟨d :: first, c, last, rfl, List.forall_mem_cons.mpr ⟨here, before⟩, solid⟩

/-- What stands around is stripped with the rest. -/
theorem stripped_surrounded (start : ∀ d ∈ before, p d = true) (end_ : ∀ d ∈ after, p d = true) :
    stripped p (before ++ text ++ after) = stripped p text := by
  rcases forall_or_split p text with all | ⟨first, c, last, rfl, inner, solid⟩
  · rw [stripped_eq_nil all, stripped_eq_nil]
    exact List.forall_mem_append.mpr ⟨List.forall_mem_append.mpr ⟨start, all⟩, end_⟩
  · rw [List.append_assoc, List.append_assoc, ← List.append_assoc before, List.cons_append,
      stripped_append_cons solid, stripped_append_cons solid, rdropWhile_append_of_pos end_,
      List.dropWhile_append_of_pos start]

/-- The stretches that are stripped. -/
theorem exists_around_stripped (p : α → Bool) (text : List α) :
    ∃ before after, text = before ++ stripped p text ++ after ∧ (∀ d ∈ before, p d = true) ∧
      ∀ d ∈ after, p d = true := by
  have whole : (text.dropWhile p).rdropWhile p ++ (text.dropWhile p).rtakeWhile p =
      text.dropWhile p := List.rdropWhile_append_rtakeWhile
  refine ⟨text.takeWhile p, (text.dropWhile p).rtakeWhile p, ?_, ?_, ?_⟩
  · rw [stripped, List.append_assoc, whole, List.takeWhile_append_dropWhile]
  · exact fun d member => List.mem_takeWhile_imp member
  · exact fun d member => List.mem_rtakeWhile_imp member

/-- Neither end is of the kind that is stripped. -/
def Bounded (p : α → Bool) (text : List α) : Prop :=
  (∃ c rest, text = c :: rest ∧ p c = false) ∧ ∃ init d, text = init ++ [d] ∧ p d = false

theorem stripped_bounded (p : α → Bool) (text : List α) :
    (∀ d ∈ text, p d = true) ∨ Bounded p (stripped p text) := by
  rcases forall_or_split p text with all | ⟨first, c, last, rfl, before, solid⟩
  · exact .inl all
  · have start : (first ++ c :: last).dropWhile p = c :: last := by
      rw [dropWhile_append_cons solid, List.dropWhile_eq_nil_iff.mpr before, List.nil_append]
    refine .inr ⟨⟨c, last.rdropWhile p, ?_, solid⟩, ?_⟩
    · rw [stripped_append_cons solid, List.dropWhile_eq_nil_iff.mpr before, List.nil_append]
    · have nonempty : (c :: last).rdropWhile p ≠ [] := by
        rw [← List.nil_append (c :: last), rdropWhile_append_cons solid]
        exact List.cons_ne_nil _ _
      rw [stripped, start]
      exact ⟨_, _, (List.dropLast_append_getLast nonempty).symm,
        (Bool.not_eq_true _).mp (List.rdropWhile_last_not p (c :: last) nonempty)⟩

/-- Stripping stops at a text with such ends. -/
theorem stripped_between (bounded : Bounded p text) :
    stripped p (before ++ text ++ after) = before.dropWhile p ++ text ++ after.rdropWhile p := by
  obtain ⟨⟨c, rest, first, start⟩, init, d, last, end_⟩ := bounded
  have opened : (before ++ text ++ after).dropWhile p = before.dropWhile p ++ text ++ after := by
    rw [first, List.append_assoc, List.cons_append, dropWhile_append_cons start, List.append_assoc,
      List.cons_append]
  have cut (front : List α) : front ++ text ++ after = front ++ init ++ d :: after := by
    rw [last]
    simp
  rw [stripped, opened, cut, rdropWhile_append_cons end_, last]
  simp

theorem stripped_rdropWhile : stripped p (text.rdropWhile p) = stripped p text := by
  have around : stripped p ([] ++ text.rdropWhile p ++ text.rtakeWhile p) =
      stripped p (text.rdropWhile p) :=
    stripped_surrounded (fun d member => absurd member List.not_mem_nil)
      fun d member => List.mem_rtakeWhile_imp member
  rw [← around, List.nil_append, List.rdropWhile_append_rtakeWhile]

theorem stripped_dropWhile : stripped p (text.dropWhile p) = stripped p text := by
  rw [stripped, List.dropWhile_idempotent]
  rfl

end

/-! ## Cutting at an element -/

/-- Split where an element stands last. -/
theorem exists_last_split {α : Type} {c : α} {text : List α} (member : c ∈ text) :
    ∃ before after, text = before ++ c :: after ∧ c ∉ after := by
  obtain ⟨rest, front, split, absent⟩ := List.eq_append_cons_of_mem (List.mem_reverse.mpr member)
  refine ⟨front.reverse, rest.reverse, ?_, fun inside => absent (List.mem_reverse.mp inside)⟩
  rw [← List.reverse_reverse text, split]
  simp

variable {before after text : List Char} {c separator : Char}

section

variable {α : Type} [DecidableEq α] {before after : List α} {c : α}

theorem takeWhile_ne_append_cons (absent : c ∉ before) :
    (before ++ c :: after).takeWhile (· ≠ c) = before := by
  have other : ∀ d ∈ before, decide (d ≠ c) = true :=
    fun d member => decide_eq_true fun same => absent (same ▸ member)
  rw [List.takeWhile_append_of_pos other, List.takeWhile_cons_of_neg (by simp), List.append_nil]

theorem dropWhile_ne_append_cons (absent : c ∉ before) :
    (before ++ c :: after).dropWhile (· ≠ c) = c :: after := by
  have other : ∀ d ∈ before, decide (d ≠ c) = true :=
    fun d member => decide_eq_true fun same => absent (same ▸ member)
  rw [List.dropWhile_append_of_pos other, List.dropWhile_cons_of_neg (by simp)]

theorem eq_of_last_split {other last : List α} (whole : before ++ c :: after = other ++ c :: last)
    (absent : c ∉ after) (clean : c ∉ last) : after = last := by
  have reversed (front back : List α) :
      (front ++ c :: back).reverse = back.reverse ++ c :: front.reverse := by simp
  have cut := congrArg (fun text => (List.reverse text).takeWhile (· ≠ c)) whole
  simp only [reversed] at cut
  rw [takeWhile_ne_append_cons (fun member => absent (List.mem_reverse.mp member)),
    takeWhile_ne_append_cons (fun member => clean (List.mem_reverse.mp member))] at cut
  exact List.reverse_inj.mp cut

end

/-! ## White space around a text -/

/-- Trimming does not reach past a character that is no white space. -/
theorem trim_append_cons (solid : isWhitespace c = false) : trim (before ++ c :: after) =
    before.dropWhile isWhitespace ++ c :: after.rdropWhile isWhitespace :=
  stripped_append_cons solid

/-- A text without white space, trimmed, is itself. -/
theorem trim_of_solid (solid : ∀ d ∈ text, isWhitespace d = false) : trim text = text := by
  have start : text.dropWhile isWhitespace = text := by
    cases text with
    | nil => rfl
    | cons d text =>
        exact List.dropWhile_cons_of_neg (Bool.not_eq_true _ ▸ solid d List.mem_cons_self)
  have finish : text.reverse.dropWhile isWhitespace = text.reverse := by
    cases last : text.reverse with
    | nil => rfl
    | cons d rest =>
        have member : d ∈ text := List.mem_reverse.mp (last ▸ List.mem_cons_self)
        exact List.dropWhile_cons_of_neg (Bool.not_eq_true _ ▸ solid d member)
  rw [trim, start, List.rdropWhile, finish, List.reverse_reverse]

/-! ## Splitting -/

theorem splitOnce_append_cons (absent : separator ∉ before) :
    splitOnce separator (before ++ separator :: after) = some (before, after) := by
  induction before with
  | nil => rw [List.nil_append, splitOnce, if_pos rfl]
  | cons d before ih =>
      obtain ⟨other, rest⟩ := List.ne_and_not_mem_of_not_mem_cons absent
      rw [List.cons_append, splitOnce, if_neg (Ne.symm other), ih rest]
      rfl

theorem splitOnce_eq_none (absent : separator ∉ text) : splitOnce separator text = none := by
  induction text with
  | nil => rfl
  | cons d text ih =>
      obtain ⟨other, rest⟩ := List.ne_and_not_mem_of_not_mem_cons absent
      rw [splitOnce, if_neg (Ne.symm other), ih rest]
      rfl

theorem rsplitOnce_append_cons (absent : separator ∉ after) :
    rsplitOnce separator (before ++ separator :: after) = some (before, after) := by
  have reversed : (before ++ separator :: after).reverse =
      after.reverse ++ separator :: before.reverse := by simp
  have absent : separator ∉ after.reverse := fun member => absent (List.mem_reverse.mp member)
  rw [rsplitOnce, reversed, splitOnce_append_cons absent, Option.map_some]
  simp only [List.reverse_reverse]

theorem rsplitOnce_eq_none (absent : separator ∉ text) : rsplitOnce separator text = none := by
  rw [rsplitOnce, splitOnce_eq_none (fun member => absent (List.mem_reverse.mp member))]
  rfl

/-! ## Lower case -/

theorem isLower_of_upper {c : Char} (upper : c.val ≥ 'A'.val ∧ c.val ≤ 'Z'.val) :
    c.toLower.isLower = true := by
  have least := UInt32.le_iff_toNat_le.mp upper.1
  have most := UInt32.le_iff_toNat_le.mp upper.2
  have codes : 'A'.val.toNat = 65 ∧ 'Z'.val.toNat = 90 ∧ 'a'.val.toNat = 97 ∧
      'z'.val.toNat = 122 ∧ ('a'.val - 'A'.val).toNat = 32 := by decide
  obtain ⟨bigA, bigZ, smallA, smallZ, gap⟩ := codes
  rw [bigA] at least
  rw [bigZ] at most
  have lowered : c.toLower = _ := dif_pos upper
  rw [lowered]
  refine Bool.and_eq_true_iff.mpr ⟨decide_eq_true ?_, decide_eq_true ?_⟩
  · rw [ge_iff_le, UInt32.le_iff_toNat_le, UInt32.toNat_add, gap, smallA, Nat.mod_eq_of_lt (by omega)]
    omega
  · rw [UInt32.le_iff_toNat_le, UInt32.toNat_add, gap, smallZ, Nat.mod_eq_of_lt (by omega)]
    omega

/-- Only letters are lowered. -/
theorem eq_of_toLower_eq {d : Char} (same : c.toLower = d) (solid : d.isLower = false) : c = d := by
  by_cases upper : c.val ≥ 'A'.val ∧ c.val ≤ 'Z'.val
  · rw [← same, isLower_of_upper upper] at solid
    cases solid
  · have kept : c.toLower = c := dif_neg upper
    rw [← same, kept]

theorem not_mem_toAsciiLowercase {d : Char} (solid : d.isLower = false) (absent : d ∉ text) :
    d ∉ toAsciiLowercase text := by
  intro member
  obtain ⟨c, here, same⟩ := List.mem_map.mp member
  exact absent (eq_of_toLower_eq same solid ▸ here)

theorem toLower_of_isDigit (digit : c.isDigit = true) : c.toLower = c := by
  refine dif_neg fun upper => ?_
  have most := (Bool.and_eq_true _ _ ▸ digit : _ ∧ _).2
  exact absurd (UInt32.le_trans upper.1 (of_decide_eq_true most)) (by decide)

end StormLb.Text
