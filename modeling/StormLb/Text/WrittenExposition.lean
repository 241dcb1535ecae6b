import Mathlib.Data.List.TakeWhile
import StormLb.Text.Exposition

/-!
# Written labels and numbers

Label sets and whole numbers as they are written, and that the reader gives each of
them back.
-/

namespace StormLb.Exposition

variable {name value text front rest : List Char} {pairs : List (List Char × List Char)}

/-! ## Up to a character -/

theorem takeWhile_append_stop {p : Char → Bool} {c : Char} (holds : ∀ d ∈ front, p d = true)
    (stop : p c = false) : (front ++ c :: rest).takeWhile p = front := by
  rw [List.takeWhile_append_of_pos holds, List.takeWhile_cons_of_neg (Bool.not_eq_true _ ▸ stop),
    List.append_nil]

theorem dropWhile_append_stop {p : Char → Bool} {c : Char} (holds : ∀ d ∈ front, p d = true)
    (stop : p c = false) : (front ++ c :: rest).dropWhile p = c :: rest := by
  rw [List.dropWhile_append_of_pos holds, List.dropWhile_cons_of_neg (Bool.not_eq_true _ ▸ stop)]

theorem skipBlanks_cons {c : Char} (solid : isBlank c = false) :
    skipBlanks (c :: rest) = c :: rest :=
  List.dropWhile_cons_of_neg (Bool.not_eq_true _ ▸ solid)

/-! ## Label sets -/

/-- A character of a label value. -/
def escape (c : Char) : List Char :=
  if c = '\\' then ['\\', '\\'] else if c = '"' then ['\\', '"']
  else if c = '\n' then ['\\', 'n'] else [c]

def escaped (value : List Char) : List Char :=
  value.flatMap escape

theorem escaped_cons (c : Char) (value : List Char) :
    escaped (c :: value) = escape c ++ escaped value :=
  List.flatMap_cons

theorem readQuoted_quote (rest : List Char) : readQuoted ('"' :: rest) = some ([], rest) := by
  unfold readQuoted
  rfl

theorem readQuoted_plain {c : Char} (quote : c ≠ '"') (slash : c ≠ '\\') (newline : c ≠ '\n') :
    readQuoted (c :: rest) = (readQuoted rest).map fun (value, rest) => (c :: value, rest) := by
  rw [readQuoted.eq_def]
  simp only [if_neg quote, if_neg slash, if_neg newline]

theorem readQuoted_escape {c d : Char} (stands : unescape c = some d) :
    readQuoted ('\\' :: c :: rest) =
      (readQuoted rest).map fun (value, rest) => (d :: value, rest) := by
  rw [readQuoted.eq_def]
  simp only [if_neg (show '\\' ≠ '"' by decide), if_true, stands]

/-- A value, escaped, ends at the quote after it, whatever is in it. -/
theorem readQuoted_escaped (value rest : List Char) :
    readQuoted (escaped value ++ '"' :: rest) = some (value, rest) := by
  induction value with
  | nil => exact readQuoted_quote rest
  | cons c value ih =>
      rw [escaped_cons, List.append_assoc, escape]
      split_ifs with slash quote newline
      · rw [List.cons_append, List.singleton_append, readQuoted_escape rfl, ih, slash]
        rfl
      · rw [List.cons_append, List.singleton_append, readQuoted_escape rfl, ih, quote]
        rfl
      · rw [List.cons_append, List.singleton_append, readQuoted_escape rfl, ih, newline]
        rfl
      · rw [List.singleton_append, readQuoted_plain quote slash newline, ih]
        rfl

theorem newline_not_mem_escaped (value : List Char) : '\n' ∉ escaped value := by
  intro member
  obtain ⟨c, -, inside⟩ := List.mem_flatMap.mp member
  unfold escape at inside
  split_ifs at inside with slash quote newline
  all_goals simp at inside
  exact newline inside.symm

def writePair (pair : List Char × List Char) : List Char :=
  pair.1 ++ '=' :: '"' :: (escaped pair.2 ++ ['"'])

def writePairs : List (List Char × List Char) → List Char
  | [] => []
  | [pair] => writePair pair
  | pair :: pairs => writePair pair ++ ',' :: writePairs pairs

def writeLabels : List (List Char × List Char) → List Char
  | [] => []
  | pairs => '{' :: (writePairs pairs ++ ['}'])

theorem writePairs_cons_cons (pair next : List Char × List Char) :
    writePairs (pair :: next :: pairs) = writePair pair ++ ',' :: writePairs (next :: pairs) := by
  rw [writePairs]
  exact List.cons_ne_nil _ _

/-- Characters of a kind that no blank is of are no blanks. -/
theorem isBlank_of_kind {p : Char → Bool} (space : p ' ' = false) (tab : p '\t' = false) {c : Char}
    (holds : p c = true) : isBlank c = false := by
  refine decide_eq_false ?_
  rintro (rfl | rfl)
  · exact absurd (space.symm.trans holds) Bool.false_ne_true
  · exact absurd (tab.symm.trans holds) Bool.false_ne_true

theorem isBlank_of_labelChar {c : Char} (labelChar : isLabelChar c = true) : isBlank c = false :=
  isBlank_of_kind (by decide) (by decide) labelChar

/-- A name is not empty, and its characters are all of one kind. -/
theorem name_spec {p : Char → Bool}
    (named : (name.all p && (name.head?.map fun c => !c.isDigit).getD false) = true) :
    (∀ c ∈ name, p c = true) ∧ ∃ c tail, name = c :: tail := by
  obtain ⟨chars, head⟩ := Bool.and_eq_true_iff.mp named
  cases name with
  | nil => exact absurd head Bool.false_ne_true
  | cons c tail => exact ⟨fun d member => List.all_eq_true.mp chars d member, c, tail, rfl⟩

theorem isLabelName_spec (named : isLabelName name = true) :
    (∀ c ∈ name, isLabelChar c = true) ∧ ∃ c tail, name = c :: tail :=
  name_spec named

theorem readPair_writePair (named : isLabelName name = true) :
    readPair (writePair (name, value) ++ rest) = some ((name, value), rest) := by
  obtain ⟨chars, -⟩ := isLabelName_spec named
  have shape : writePair (name, value) ++ rest =
      name ++ '=' :: '"' :: (escaped value ++ '"' :: rest) := by
    simp [writePair]
  have stop : isLabelChar '=' = false := by decide
  rw [shape, readPair, takeWhile_append_stop chars stop, dropWhile_append_stop chars stop,
    skipBlanks_cons (by decide)]
  simp only [named, if_true]
  rw [skipBlanks_cons (by decide)]
  simp only [readQuoted_escaped, Option.map_some]

/-- Where a label set opens, there is a label, not the brace that closes it. -/
theorem readPairs_pair (fuel : Nat) (named : isLabelName name = true) :
    readPairs (fuel + 1) (writePair (name, value) ++ rest) =
      (some ((name, value), rest)).bind fun (pair, rest) =>
        match skipBlanks rest with
        | ',' :: rest => do
            let (pairs, rest) ← readPairs fuel rest
            return (pair :: pairs, rest)
        | '}' :: rest => return ([pair], rest)
        | _ => none := by
  obtain ⟨chars, c, tail, shape⟩ := isLabelName_spec named
  have head : isLabelChar c = true := chars c (shape ▸ List.mem_cons_self)
  have opened : writePair (name, value) ++ rest =
      c :: (tail ++ '=' :: '"' :: (escaped value ++ '"' :: rest)) := by
    simp [writePair, shape]
  rw [readPairs, opened, skipBlanks_cons (isBlank_of_labelChar head), ← opened]
  split
  · rename_i brace
    rw [opened] at brace
    obtain ⟨rfl, -⟩ := List.cons.inj brace
    exact absurd head (by decide)
  · rw [readPair_writePair named]
    rfl

theorem readPairs_last (fuel : Nat) (named : isLabelName name = true) :
    readPairs (fuel + 1) (writePair (name, value) ++ '}' :: rest) =
      some ([(name, value)], rest) := by
  have stays := @skipBlanks_cons rest '}' (by decide)
  rw [readPairs_pair fuel named, Option.bind_some]
  simp only [stays]
  rfl

theorem readPairs_next (fuel : Nat) (named : isLabelName name = true) :
    readPairs (fuel + 1) (writePair (name, value) ++ ',' :: rest) =
      (readPairs fuel rest).bind fun (pairs, rest) => some ((name, value) :: pairs, rest) := by
  have stays := @skipBlanks_cons rest ',' (by decide)
  rw [readPairs_pair fuel named, Option.bind_some]
  simp only [stays]
  rfl

theorem readPairs_writePairs {fuel : Nat} (enough : pairs.length ≤ fuel) (nonempty : pairs ≠ [])
    (named : ∀ pair ∈ pairs, isLabelName pair.1 = true) :
    readPairs fuel (writePairs pairs ++ '}' :: rest) = some (pairs, rest) := by
  induction pairs generalizing fuel with
  | nil => exact absurd rfl nonempty
  | cons pair pairs ih =>
      obtain ⟨here, later⟩ := List.forall_mem_cons.mp named
      obtain ⟨fuel, rfl⟩ : ∃ less, fuel = less + 1 :=
        Nat.exists_eq_succ_of_ne_zero (Nat.ne_of_gt (Nat.lt_of_lt_of_le (Nat.succ_pos _) enough))
      cases pairs with
      | nil => exact readPairs_last fuel here
      | cons next pairs =>
          have more := ih (Nat.le_of_succ_le_succ enough) (List.cons_ne_nil _ _) later
          have shape : writePairs (pair :: next :: pairs) ++ '}' :: rest =
              writePair pair ++ ',' :: (writePairs (next :: pairs) ++ '}' :: rest) := by
            rw [writePairs_cons_cons, List.append_assoc, List.cons_append]
          rw [shape, readPairs_next fuel here, more, Option.bind_some]

theorem length_le_writePairs (pairs : List (List Char × List Char)) :
    pairs.length ≤ (writePairs pairs).length := by
  induction pairs with
  | nil => exact Nat.zero_le _
  | cons pair pairs ih =>
      cases pairs with
      | nil =>
          rw [writePairs, writePair, List.length_append, List.length_singleton, List.length_cons]
          omega
      | cons next pairs =>
          simp only [writePairs, List.length_append, List.length_cons] at ih ⊢
          omega

theorem skipBlanks_writeLabels_cons (pair : List Char × List Char) :
    skipBlanks (writeLabels (pair :: pairs) ++ rest) = writeLabels (pair :: pairs) ++ rest := by
  rw [writeLabels, List.cons_append, skipBlanks_cons (by decide)]
  exact List.cons_ne_nil _ _

theorem newline_not_mem_writeLabels (named : ∀ pair ∈ pairs, isLabelName pair.1 = true) :
    '\n' ∉ writeLabels pairs := by
  have inPair : ∀ pair ∈ pairs, '\n' ∉ writePair pair := fun pair member => by
    have name : '\n' ∉ pair.1 := fun inside =>
      absurd ((isLabelName_spec (named pair member)).1 _ inside) (by decide)
    simp [writePair, name, newline_not_mem_escaped]
  have inPairs : '\n' ∉ writePairs pairs := by
    clear named
    induction pairs with
    | nil => exact List.not_mem_nil
    | cons pair pairs ih =>
        obtain ⟨here, later⟩ := List.forall_mem_cons.mp inPair
        cases pairs with
        | nil => exact here
        | cons next pairs => simp [writePairs, here, ih later]
  cases pairs with
  | nil => exact List.not_mem_nil
  | cons pair pairs => simp [writeLabels, inPairs]

/-- Label sets are read back, with what follows them. -/
theorem readLabels_writeLabels (named : ∀ pair ∈ pairs, isLabelName pair.1 = true)
    (apart : rest.head? ≠ some '{') :
    readLabels (writeLabels pairs ++ rest) = some (pairs, rest) := by
  cases pairs with
  | nil =>
      unfold readLabels writeLabels
      split
      · rename_i brace
        rw [List.nil_append] at brace
        exact absurd (congrArg List.head? brace) apart
      · rfl
  | cons pair pairs =>
      have shape : writeLabels (pair :: pairs) ++ rest =
          '{' :: (writePairs (pair :: pairs) ++ '}' :: rest) := by
        simp [writeLabels]
      rw [shape]
      refine readPairs_writePairs ?_ (List.cons_ne_nil _ _) named
      rw [List.length_append]
      exact Nat.le_add_right_of_le (length_le_writePairs _)

theorem writePair_values {value' front' : List Char}
    (same : writePair (name, value) ++ front = writePair (name, value') ++ front') :
    value = value' ∧ front = front' := by
  have shape (value front : List Char) : writePair (name, value) ++ front =
      name ++ '=' :: '"' :: (escaped value ++ '"' :: front) := by
    simp [writePair]
  rw [shape, shape] at same
  have tails := (List.cons.inj (List.cons.inj (List.append_cancel_left same)).2).2
  have read := congrArg readQuoted tails
  rw [readQuoted_escaped, readQuoted_escaped] at read
  exact Prod.mk.inj (Option.some.inj read)

theorem writePairs_values {others : List (List Char × List Char)}
    (names : pairs.map Prod.fst = others.map Prod.fst)
    (same : writePairs pairs = writePairs others) : pairs = others := by
  induction pairs generalizing others with
  | nil => exact (List.map_eq_nil_iff.mp names.symm).symm
  | cons pair pairs ih =>
      cases others with
      | nil => exact absurd names (List.cons_ne_nil _ _)
      | cons other others =>
          obtain ⟨name, value⟩ := pair
          obtain ⟨name', value'⟩ := other
          obtain ⟨first, rest⟩ := List.cons.inj names
          obtain rfl : name = name' := first
          cases pairs with
          | nil =>
              obtain rfl := List.map_eq_nil_iff.mp rest.symm
              have equal := congrArg (· ++ []) same
              rw [(writePair_values equal).1]
          | cons next pairs =>
              cases others with
              | nil => exact absurd rest (List.cons_ne_nil _ _)
              | cons next' others =>
                  rw [writePairs_cons_cons, writePairs_cons_cons] at same
                  obtain ⟨rfl, tails⟩ := writePair_values same
                  rw [ih rest (List.cons.inj tails).2]

/-- Values under the same names, whatever the names are, are told apart by the text. -/
theorem writeLabels_values {others : List (List Char × List Char)}
    (names : pairs.map Prod.fst = others.map Prod.fst)
    (same : writeLabels pairs = writeLabels others) : pairs = others := by
  cases pairs with
  | nil => exact (List.map_eq_nil_iff.mp names.symm).symm
  | cons pair pairs =>
      cases others with
      | nil => exact absurd names (List.cons_ne_nil _ _)
      | cons other others =>
          exact writePairs_values names (List.append_cancel_right (List.cons.inj same).2)

/-! ## Whole numbers -/

/-- A whole number, in digits. -/
def decimal (n : Int) : List Char :=
  n.repr.toList

theorem floatChars_digits {digits : List Char} (all : ∀ c ∈ digits, c.isDigit = true) :
    digits.all isFloatChar = true :=
  List.all_eq_true.mpr fun c member => by rw [isFloatChar, all c member, Bool.true_or]

/-- A decimal without a sign is a number, and so it is with one. -/
theorem isFloat_of_isDecimal {c : Char} {body : List Char} (digit : c.isDigit = true)
    (chars : (c :: body).all isFloatChar = true) (numeral : isDecimal (c :: body) = true) :
    isFloat (c :: body) = true ∧ isFloat ('-' :: c :: body) = true := by
  have unsigned : dropSign (c :: body) = c :: body := by
    unfold dropSign
    split
    · rename_i sign
      exact absurd ((List.cons.inj sign).1 ▸ digit) (by decide)
    · rename_i sign
      exact absurd ((List.cons.inj sign).1 ▸ digit) (by decide)
    · rfl
  constructor
  · unfold isFloat
    rw [unsigned]
    exact decide_eq_true ⟨chars, .inl numeral⟩
  · have signed : ('-' :: c :: body).all isFloatChar = true := by
      rw [List.all_cons, chars]
      rfl
    exact decide_eq_true ⟨signed, .inl numeral⟩

theorem isFloat_digits {digits : List Char} (nonempty : digits ≠ [])
    (all : ∀ c ∈ digits, c.isDigit = true) :
    isFloat digits = true ∧ isFloat ('-' :: digits) = true := by
  have front : digits.takeWhile Char.isDigit = digits := List.takeWhile_eq_self_iff.mpr all
  have back : digits.dropWhile Char.isDigit = [] := List.dropWhile_eq_nil_iff.mpr all
  have numeral : isDecimal digits = true := by
    unfold isDecimal
    simp only [front, back, isExponent]
    exact decide_eq_true ⟨nonempty, trivial⟩
  have chars := floatChars_digits all
  cases digits with
  | nil => exact absurd rfl nonempty
  | cons c digits => exact isFloat_of_isDecimal (all c List.mem_cons_self) chars numeral

theorem isFloat_point {whole fraction : List Char} (nonempty : whole ≠ [])
    (all : ∀ c ∈ whole, c.isDigit = true) (rest : ∀ c ∈ fraction, c.isDigit = true) :
    isFloat (whole ++ '.' :: fraction) = true ∧
      isFloat ('-' :: (whole ++ '.' :: fraction)) = true := by
  have back : fraction.dropWhile Char.isDigit = [] := List.dropWhile_eq_nil_iff.mpr rest
  have numeral : isDecimal (whole ++ '.' :: fraction) = true := by
    unfold isDecimal
    rw [takeWhile_append_stop all (by decide), dropWhile_append_stop all (by decide)]
    simp only [back, isExponent]
    exact decide_eq_true ⟨.inl nonempty, trivial⟩
  have chars : (whole ++ '.' :: fraction).all isFloatChar = true := by
    rw [List.all_append, List.all_cons, floatChars_digits all, floatChars_digits rest]
    rfl
  cases whole with
  | nil => exact absurd rfl nonempty
  | cons c whole => exact isFloat_of_isDecimal (all c List.mem_cons_self) chars numeral

theorem isFloat_decimal (n : Int) : isFloat (decimal n) = true := by
  have digits (n : Nat) : n.repr.toList ≠ [] ∧ ∀ c ∈ n.repr.toList, c.isDigit = true := by
    rw [Nat.toList_repr]
    exact ⟨Nat.toDigits_ne_nil, fun c member =>
      Nat.isDigit_of_mem_toDigits (by decide) (by decide) member⟩
  rw [decimal, Int.repr_eq_if]
  split
  · exact (isFloat_digits (digits _).1 (digits _).2).1
  · rw [String.toList_append]
    exact (isFloat_digits (digits _).1 (digits _).2).2

theorem readNumber_decimal (n : Int) : readNumber (decimal n) = some (.whole n) := by
  unfold readNumber
  rw [if_pos (isFloat_decimal n), decimal, String.ofList_toList, Int.toInt?_repr]

end StormLb.Exposition
