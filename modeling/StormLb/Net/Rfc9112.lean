import StormLb.Text.Cut
import StormLb.Text.Lines

/-!
# Header fields, by the grammar

The fields of a head as RFC 9112 reads them: lines end with CRLF, a line that
starts with a space or a tab continues the field before it, a name ends at its
colon, and the white space around a value is spaces and tabs.
-/

namespace StormLb.Net.Rfc9112

open StormLb.Text

/-! ## Lines -/

/-- Bytes put in front of the first line, if there is one. -/
def prepend (bytes : List UInt8) : List (List UInt8) → List (List UInt8)
  | [] => []
  | line :: lines => (bytes ++ line) :: lines

/-- The lines that a CRLF ends, each without it. -/
def crlfLines : List UInt8 → List (List UInt8)
  | [] => []
  | 13 :: 10 :: rest => [] :: crlfLines rest
  | b :: rest => prepend [b] (crlfLines rest)

/-- The lines after the first one, up to the empty one. -/
def fieldLines (head : List UInt8) : List (List UInt8) :=
  (crlfLines head).tail.takeWhile (· ≠ [])

/-! ## Fields -/

/-- A space or a tab. -/
def isOws (b : UInt8) : Bool :=
  b = 32 ∨ b = 9

/-- The line continues the field before it. -/
def continues (line : List UInt8) : Bool :=
  line.head?.any isOws

/-- A field starts on the line, with this name in any case. -/
def isField (name line : List UInt8) : Bool :=
  58 ∈ line ∧ (line.takeWhile (· ≠ 58)).map asciiLower = name

def afterColon (line : List UInt8) : List UInt8 :=
  (line.dropWhile (· ≠ 58)).drop 1

/-- A value and a line that continues it, with a space in place of the fold. -/
def joined (value line : List UInt8) : List UInt8 :=
  value.rdropWhile isOws ++ 32 :: line.dropWhile isOws

/-- The value of the field on the line, with what continues it. -/
def fieldValue (line : List UInt8) (continuations : List (List UInt8)) : List UInt8 :=
  stripped isOws (continuations.foldl joined (afterColon line))

/-- The values of the fields of this name, in order. -/
def fieldValues (name : List UInt8) : List (List UInt8) → List (List UInt8)
  | [] => []
  | line :: rest =>
      if isField name line then
        fieldValue line (rest.takeWhile continues) :: fieldValues name rest
      else fieldValues name rest

/-- A host without the port behind it. -/
def withoutPort (host : List UInt8) : List UInt8 :=
  let before := host.rdropWhile isAsciiDigit
  if before.getLast? = some 58 then before.dropLast else host

example : fieldValues [104]
    (fieldLines [71, 13, 10, 72, 58, 32, 49, 13, 10, 9, 50, 13, 10, 13, 10]) = [[49, 32, 50]] := by
  decide

/-! ## Where lines end -/

section

variable {line rest : List UInt8} {lines : List (List UInt8)}

theorem prepend_append (bytes : List UInt8) (nonempty : lines ≠ []) (more : List (List UInt8)) :
    prepend bytes (lines ++ more) = prepend bytes lines ++ more := by
  cases lines with
  | nil => exact absurd rfl nonempty
  | cons line lines => rfl

/-- No line ends at this byte. -/
theorem crlfLines_cons {b : UInt8} (apart : b ≠ 13 ∨ rest.head? ≠ some 10) :
    crlfLines (b :: rest) = prepend [b] (crlfLines rest) := by
  refine crlfLines.eq_3 b rest fun after same next => ?_
  rcases apart with other | other
  · exact other same
  · exact other (next ▸ rfl)

theorem crlfLines_ended (absent : 10 ∉ line) :
    crlfLines (line ++ 13 :: 10 :: rest) = line :: crlfLines rest := by
  induction line with
  | nil => rfl
  | cons b line ih =>
      obtain ⟨other, absent⟩ := List.ne_and_not_mem_of_not_mem_cons absent
      have apart : (line ++ 13 :: 10 :: rest).head? ≠ some 10 := by
        cases line with
        | nil => simp
        | cons c line => simpa using Ne.symm (List.ne_and_not_mem_of_not_mem_cons absent).1
      rw [List.cons_append, crlfLines_cons (.inr apart), ih absent]
      rfl

/-- A newline without a return before it ends no line. -/
theorem crlfLines_open (absent : 10 ∉ line) (bare : line.getLast? ≠ some 13) :
    crlfLines (line ++ 10 :: rest) = prepend (line ++ [10]) (crlfLines rest) := by
  induction line with
  | nil => exact crlfLines_cons (.inl (by decide))
  | cons b line ih =>
      obtain ⟨other, absent⟩ := List.ne_and_not_mem_of_not_mem_cons absent
      cases line with
      | nil =>
          have alone : b ≠ 13 := fun same => bare (same ▸ rfl)
          have next := ih List.not_mem_nil (by simp)
          rw [List.nil_append] at next
          rw [List.cons_append, List.nil_append, crlfLines_cons (.inl alone), next]
          cases crlfLines rest with
          | nil => rfl
          | cons more lines => rfl
      | cons c line =>
          have apart : (c :: line ++ 10 :: rest).head? ≠ some 10 := by
            simpa using Ne.symm (List.ne_and_not_mem_of_not_mem_cons absent).1
          rw [List.cons_append, crlfLines_cons (.inr apart), ih absent (by simpa using bare)]
          cases crlfLines rest with
          | nil => rfl
          | cons more lines => rfl

/-- Behind a CRLF the lines start anew. -/
theorem crlfLines_append (first rest : List UInt8) :
    crlfLines (first ++ 13 :: 10 :: rest) = crlfLines (first ++ [13, 10]) ++ crlfLines rest ∧
      crlfLines (first ++ [13, 10]) ≠ [] := by
  induction first using crlfLines.induct with
  | case1 => exact ⟨rfl, List.cons_ne_nil _ _⟩
  | case2 first ih => exact ⟨congrArg (List.cons []) ih.1, List.cons_ne_nil _ _⟩
  | case3 b first apart ih =>
      have apart (more : List UInt8) : b ≠ 13 ∨ (first ++ 13 :: more).head? ≠ some 10 := by
        by_cases same : b = 13
        · right
          cases first with
          | nil => simp
          | cons c first =>
              intro next
              exact apart first same (congrArg (· :: first) (Option.some.inj next))
        · exact .inl same
      rw [List.cons_append, List.cons_append, crlfLines_cons (apart _), crlfLines_cons (apart _),
        ih.1, prepend_append _ ih.2]
      refine ⟨rfl, fun none => ih.2 ?_⟩
      cases pieces : crlfLines (first ++ [13, 10]) with
      | nil => rfl
      | cons line lines => rw [pieces] at none; cases none

/-- A line that a newline ends has a return before that, or none. -/
theorem ended_or_open (isLine : IsLine 10 line) :
    (∃ content, 10 ∉ content ∧ line = content ++ [13, 10]) ∨
      ∃ content, 10 ∉ content ∧ content.getLast? ≠ some 13 ∧ line = content ++ [10] := by
  obtain ⟨body, absent, rfl⟩ := isLine
  by_cases returned : body.getLast? = some 13
  · obtain ⟨content, rfl⟩ := List.getLast?_eq_some_iff.mp returned
    refine .inl ⟨content, fun member => absent (List.mem_append_left _ member), ?_⟩
    rw [List.append_assoc]
    rfl
  · exact .inr ⟨body, absent, returned, rfl⟩

/-- Where a CRLF ended the line before, one that a newline ends starts too. -/
theorem exists_start (isLine : ∀ line ∈ lines, IsLine 10 line) {piece : List UInt8}
    (member : piece ∈ crlfLines lines.flatten) : ∃ line ∈ lines, line <+: piece ++ [13, 10] := by
  induction lines generalizing piece with
  | nil => cases member
  | cons line lines ih =>
      obtain ⟨here, isLine⟩ := List.forall_mem_cons.mp isLine
      have later {piece : List UInt8} (member : piece ∈ crlfLines lines.flatten) :
          ∃ other ∈ line :: lines, other <+: piece ++ [13, 10] := by
        obtain ⟨other, inside, starts⟩ := ih isLine member
        exact ⟨other, List.mem_cons_of_mem line inside, starts⟩
      rcases ended_or_open here with ⟨content, absent, rfl⟩ | ⟨content, absent, bare, rfl⟩
      · have cut : crlfLines ((content ++ [13, 10]) :: lines).flatten =
            content :: crlfLines lines.flatten := by
          rw [List.flatten_cons, List.append_assoc]
          exact crlfLines_ended absent
        rw [cut] at member
        rcases List.mem_cons.mp member with rfl | inside
        · exact ⟨_, List.mem_cons_self, List.prefix_refl _⟩
        · exact later inside
      · have cut : crlfLines ((content ++ [10]) :: lines).flatten =
            prepend (content ++ [10]) (crlfLines lines.flatten) := by
          rw [List.flatten_cons, List.append_assoc]
          exact crlfLines_open absent bare
        rw [cut] at member
        cases pieces : crlfLines lines.flatten with
        | nil => rw [pieces] at member; cases member
        | cons next more =>
            rw [pieces] at member
            rcases List.mem_cons.mp member with rfl | inside
            · refine ⟨_, List.mem_cons_self, ?_⟩
              rw [List.append_assoc]
              exact List.prefix_append _ _
            · exact later (pieces ▸ List.mem_cons_of_mem next inside)

/-- So does any but the first. -/
theorem exists_start_of_tail {first : List UInt8} (isFirst : IsLine 10 first)
    (isLine : ∀ line ∈ lines, IsLine 10 line) {piece : List UInt8}
    (member : piece ∈ (crlfLines (first :: lines).flatten).tail) :
    ∃ line ∈ lines, line <+: piece ++ [13, 10] := by
  refine exists_start isLine ?_
  rw [List.flatten_cons] at member
  rcases ended_or_open isFirst with ⟨content, absent, rfl⟩ | ⟨content, absent, bare, rfl⟩
  · rw [List.append_assoc, List.cons_append, List.singleton_append,
      crlfLines_ended absent] at member
    exact member
  · rw [List.append_assoc, List.singleton_append, crlfLines_open absent bare] at member
    cases pieces : crlfLines lines.flatten with
    | nil => rw [pieces] at member; cases member
    | cons next more =>
        rw [pieces] at member
        exact List.mem_cons_of_mem next member

end

/-! ## Where fields start -/

section

variable {name line : List UInt8}

theorem isField_iff : isField name line = true ↔
    ∃ before after, line = before ++ 58 :: after ∧ 58 ∉ before ∧ before.map asciiLower = name := by
  rw [isField, decide_eq_true_eq]
  constructor
  · rintro ⟨colon, named⟩
    obtain ⟨before, after, rfl, absent⟩ := List.eq_append_cons_of_mem colon
    rw [takeWhile_ne_append_cons absent] at named
    exact ⟨before, after, rfl, absent, named⟩
  · rintro ⟨before, after, rfl, absent, named⟩
    rw [takeWhile_ne_append_cons absent]
    exact ⟨by simp, named⟩

theorem afterColon_append {before after : List UInt8} (absent : 58 ∉ before) :
    afterColon (before ++ 58 :: after) = after := by
  rw [afterColon, dropWhile_ne_append_cons absent]
  rfl

/-- A name is on one line, also where newlines end lines. -/
theorem isField_of_start {piece more : List UInt8} (oneLine : 10 ∉ name) (isLine : IsLine 10 line)
    (starts : line <+: piece ++ more) (field : isField name piece = true) :
    isField name line = true := by
  obtain ⟨before, after, rfl, absent, rfl⟩ := isField_iff.mp field
  obtain ⟨rest, whole⟩ := starts
  rw [List.append_assoc, List.cons_append] at whole
  have ends : 10 ∈ line := by
    obtain ⟨body, _, rfl⟩ := isLine
    exact List.mem_append_right body (List.mem_singleton_self 10)
  have noNewline : 10 ∉ before := fun member => oneLine (List.mem_map.mpr ⟨10, member, by decide⟩)
  rcases List.append_eq_append_iff.mp whole with ⟨inner, split, _⟩ | ⟨inner, rfl, split⟩
  · exact absurd (split ▸ List.mem_append_left inner ends) noNewline
  · cases inner with
    | nil => exact absurd (by simpa using ends) noNewline
    | cons colon inner =>
        obtain ⟨rfl, _⟩ := List.cons.inj split
        exact isField_iff.mpr ⟨before, inner, rfl, absent, rfl⟩

/-- A line and its end name the same field. -/
theorem isField_append {ending : List UInt8} (other : 58 ∉ ending) :
    isField name (line ++ ending) = isField name line := by
  rw [Bool.eq_iff_iff, isField_iff, isField_iff]
  constructor
  · rintro ⟨before, after, whole, absent, named⟩
    rcases List.append_eq_append_iff.mp whole with ⟨inner, rfl, split⟩ | ⟨inner, rfl, split⟩
    · exact absurd (split ▸ by simp) other
    · cases inner with
      | nil =>
          rw [List.nil_append] at split
          exact absurd (split ▸ List.mem_cons_self) other
      | cons colon inner =>
          obtain ⟨rfl, _⟩ := List.cons.inj split
          exact ⟨before, inner, rfl, absent, named⟩
  · rintro ⟨before, after, rfl, absent, named⟩
    exact ⟨before, after ++ ending, by simp, absent, named⟩

variable {lines : List (List UInt8)}

theorem fieldValues_append (absent : ∀ line ∈ lines, isField name line = false)
    (rest : List (List UInt8)) : fieldValues name (lines ++ rest) = fieldValues name rest := by
  induction lines with
  | nil => rfl
  | cons line lines ih =>
      obtain ⟨other, absent⟩ := List.forall_mem_cons.mp absent
      rw [List.cons_append, fieldValues, if_neg (Bool.not_eq_true _ ▸ other), ih absent]

theorem fieldValues_eq_nil_iff :
    fieldValues name lines = [] ↔ ∀ line ∈ lines, isField name line = false := by
  induction lines with
  | nil => simp [fieldValues]
  | cons line lines ih =>
      rw [fieldValues, List.forall_mem_cons, ← ih]
      cases isField name line with
      | false => simp
      | true => simp

/-- Of the lines this is the only one that starts a field of the name, and these continue it. -/
def OneField (name : List UInt8) (lines : List (List UInt8)) (line : List UInt8)
    (continuations : List (List UInt8)) : Prop :=
  ∃ sooner later, lines = sooner ++ line :: later ∧ later.takeWhile continues = continuations ∧
    isField name line = true ∧ ∀ other ∈ sooner ++ later, isField name other = false

theorem fieldValues_eq_singleton_iff {value : List UInt8} :
    fieldValues name lines = [value] ↔
      ∃ line continuations, OneField name lines line continuations ∧
        fieldValue line continuations = value := by
  constructor
  · intro one
    induction lines with
    | nil => cases one
    | cons line lines ih =>
        rw [fieldValues] at one
        split at one
        · rename_i field
          obtain ⟨same, none⟩ := List.cons.inj one
          exact ⟨line, _, ⟨[], lines, rfl, rfl, field, fieldValues_eq_nil_iff.mp none⟩, same⟩
        · rename_i other
          obtain ⟨found, continuations, ⟨sooner, later, rfl, goesOn, field, none⟩, same⟩ := ih one
          refine ⟨found, continuations, ⟨line :: sooner, later, rfl, goesOn, field, ?_⟩, same⟩
          exact List.forall_mem_cons.mpr ⟨(Bool.not_eq_true _).mp other, none⟩
  · rintro ⟨line, _, ⟨sooner, later, rfl, rfl, field, none⟩, rfl⟩
    obtain ⟨before, after⟩ := List.forall_mem_append.mp none
    rw [fieldValues_append before, fieldValues, if_pos field, fieldValues_eq_nil_iff.mpr after]

end

/-! ## Values -/

section

variable {line value : List UInt8} {continuations : List (List UInt8)}

/-- Nothing but spaces and tabs. -/
def isBare (line : List UInt8) : Bool :=
  line.all isOws

theorem stripped_joined_of_bare (bare : isBare line = true) :
    stripped isOws (joined value line) = stripped isOws value := by
  have none : line.dropWhile isOws = [] :=
    List.dropWhile_eq_nil_iff.mpr (List.all_eq_true.mp bare)
  have around : stripped isOws ([] ++ value.rdropWhile isOws ++ [32]) =
      stripped isOws (value.rdropWhile isOws) :=
    stripped_surrounded (fun b member => absurd member List.not_mem_nil)
      (List.forall_mem_singleton.mpr (by decide))
  rw [joined, none, ← around.trans stripped_rdropWhile, List.nil_append]

/-- Continuations without content leave the value as it is. -/
theorem stripped_foldl_of_bare (bare : ∀ line ∈ continuations, isBare line = true) :
    stripped isOws (continuations.foldl joined value) = stripped isOws value := by
  induction continuations generalizing value with
  | nil => rfl
  | cons line continuations ih =>
      obtain ⟨here, bare⟩ := List.forall_mem_cons.mp bare
      rw [List.foldl_cons, ih bare, stripped_joined_of_bare here]

/-- What stands before a byte that is no white space stays. -/
theorem foldl_joined_append_cons {before after : List UInt8} {b : UInt8} (solid : isOws b = false) :
    ∃ last, continuations.foldl joined (before ++ b :: after) = before ++ b :: last := by
  induction continuations generalizing after with
  | nil => exact ⟨after, rfl⟩
  | cons line continuations ih =>
      have step : joined (before ++ b :: after) line =
          before ++ b :: (after.rdropWhile isOws ++ 32 :: line.dropWhile isOws) := by
        rw [joined, rdropWhile_append_cons solid, List.append_assoc, List.cons_append]
      rw [List.foldl_cons, step]
      exact ih

/-- A continuation with content is part of the value. -/
theorem foldl_joined_of_content (content : ∃ line ∈ continuations, isBare line = false)
    (nonempty : stripped isOws value ≠ []) :
    ∃ last, stripped isOws (continuations.foldl joined value) =
      stripped isOws value ++ 32 :: last := by
  induction continuations generalizing value with
  | nil =>
      obtain ⟨line, member, _⟩ := content
      cases member
  | cons line continuations ih =>
      rw [List.foldl_cons]
      cases bare : isBare line with
      | true =>
          have further : ∃ line ∈ continuations, isBare line = false := by
            obtain ⟨other, member, solid⟩ := content
            rcases List.mem_cons.mp member with rfl | inside
            · rw [bare] at solid
              cases solid
            · exact ⟨other, inside, solid⟩
          have same : stripped isOws (joined value line) = stripped isOws value :=
            stripped_joined_of_bare bare
          rw [← same] at nonempty ⊢
          exact ih further nonempty
      | false =>
          rcases forall_or_split isOws line with all | ⟨front, b, rest, rfl, before, solid⟩
          · rw [isBare, List.all_eq_true.mpr all] at bare
            cases bare
          rcases forall_or_split isOws value with all | ⟨first, c, last, rfl, white, start⟩
          · exact absurd (stripped_eq_nil all) nonempty
          have kept : stripped isOws (first ++ c :: last) = c :: last.rdropWhile isOws := by
            rw [stripped_append_cons start, List.dropWhile_eq_nil_iff.mpr white, List.nil_append]
          have opened : (first ++ (c :: last.rdropWhile isOws ++ [32])).dropWhile isOws =
              c :: last.rdropWhile isOws ++ [32] := by
            rw [List.cons_append, dropWhile_append_cons start, List.dropWhile_eq_nil_iff.mpr white,
              List.nil_append]
          have step : joined (first ++ c :: last) (front ++ b :: rest) =
              (first ++ (c :: last.rdropWhile isOws ++ [32])) ++ b :: rest := by
            rw [joined, rdropWhile_append_cons start, dropWhile_append_cons solid,
              List.dropWhile_eq_nil_iff.mpr before]
            simp
          have folds (front : List UInt8) :
              ∃ last, continuations.foldl joined (front ++ b :: rest) = front ++ b :: last :=
            foldl_joined_append_cons solid
          obtain ⟨end_, folded⟩ := folds (first ++ (c :: last.rdropWhile isOws ++ [32]))
          rw [step, folded, stripped_append_cons solid, opened, kept]
          exact ⟨b :: end_.rdropWhile isOws, by simp⟩

theorem fieldValue_of_bare (bare : ∀ line ∈ continuations, isBare line = true) :
    fieldValue line continuations = stripped isOws (afterColon line) :=
  stripped_foldl_of_bare bare

theorem fieldValue_of_content (content : ∃ line ∈ continuations, isBare line = false)
    (nonempty : stripped isOws (afterColon line) ≠ []) :
    ∃ last, fieldValue line continuations = stripped isOws (afterColon line) ++ 32 :: last :=
  foldl_joined_of_content content nonempty

/-- What stands before a byte in the line that is no white space is in the value. -/
theorem fieldValue_of_solid {before after : List UInt8} {b : UInt8} (solid : isOws b = false)
    (split : afterColon line = before ++ b :: after) :
    ∃ last, fieldValue line continuations = before.dropWhile isOws ++ b :: last := by
  obtain ⟨last, folded⟩ :
      ∃ last, continuations.foldl joined (before ++ b :: after) = before ++ b :: last :=
    foldl_joined_append_cons solid
  rw [fieldValue, split, folded, stripped_append_cons solid]
  exact ⟨last.rdropWhile isOws, rfl⟩

end

/-! ## Ports -/

section

variable {before host digits : List UInt8} {b : UInt8}

theorem withoutPort_port (port : ∀ d ∈ digits, isAsciiDigit d = true) :
    withoutPort (host ++ 58 :: digits) = host := by
  have none : digits.rdropWhile isAsciiDigit = [] := List.rdropWhile_eq_nil_iff.mpr port
  have cut : (host ++ 58 :: digits).rdropWhile isAsciiDigit = host ++ [58] := by
    rw [rdropWhile_append_cons (by decide), none]
  rw [withoutPort, cut]
  simp

/-- A port is taken away, or there is none. -/
theorem withoutPort_cases (host : List UInt8) :
    (∃ digits, host = withoutPort host ++ 58 :: digits ∧ ∀ d ∈ digits, isAsciiDigit d = true) ∨
      withoutPort host = host ∧
        ∀ front digits, host = front ++ 58 :: digits → ¬ ∀ d ∈ digits, isAsciiDigit d = true := by
  by_cases ported : ∃ front digits, host = front ++ 58 :: digits ∧
      ∀ d ∈ digits, isAsciiDigit d = true
  · obtain ⟨front, digits, rfl, port⟩ := ported
    exact .inl ⟨digits, by rw [withoutPort_port port], port⟩
  · refine .inr ⟨?_, fun front digits whole port => ported ⟨front, digits, whole, port⟩⟩
    rw [withoutPort]
    refine if_neg fun colon => ported ?_
    obtain ⟨front, start⟩ := List.getLast?_eq_some_iff.mp colon
    refine ⟨front, host.rtakeWhile isAsciiDigit, ?_, fun d member => List.mem_rtakeWhile_imp member⟩
    have whole : host.rdropWhile isAsciiDigit ++ host.rtakeWhile isAsciiDigit = host :=
      List.rdropWhile_append_rtakeWhile
    rw [start] at whole
    simpa using whole.symm

theorem length_withoutPort_le (host : List UInt8) : (withoutPort host).length ≤ host.length := by
  rcases withoutPort_cases host with ⟨digits, whole, _⟩ | ⟨same, _⟩
  · have lengths := congrArg List.length whole
    rw [List.length_append] at lengths
    omega
  · rw [same]

/-- In front of a colon nothing is a port. -/
theorem withoutPort_append (absent : 58 ∉ before) :
    withoutPort (before ++ host) = before ++ withoutPort host := by
  rcases withoutPort_cases host with ⟨digits, whole, port⟩ | ⟨same, portless⟩
  · rw [whole, ← List.append_assoc, withoutPort_port port, withoutPort_port port]
  · rw [same]
    rcases withoutPort_cases (before ++ host) with ⟨digits, whole, port⟩ | ⟨kept, _⟩
    · rcases List.append_eq_append_iff.mp whole with ⟨inner, _, split⟩ | ⟨inner, split, rest⟩
      · exact absurd port (portless inner digits split)
      · cases inner with
        | nil => exact absurd port (portless [] digits rest.symm)
        | cons colon inner =>
            obtain ⟨rfl, _⟩ := List.cons.inj rest
            exact absurd (split ▸ by simp) absent
    · exact kept

/-- A byte that cannot be in a port stays, and what stands before it. -/
theorem withoutPort_keeps {after : List UInt8} (other : isAsciiDigit b = false) (colon : b ≠ 58) :
    before.length < (withoutPort (before ++ b :: after)).length := by
  rcases withoutPort_cases (before ++ b :: after) with ⟨digits, whole, port⟩ | ⟨same, _⟩
  · rcases List.append_eq_append_iff.mp whole with ⟨inner, kept, split⟩ | ⟨inner, kept, split⟩
    · cases inner with
      | nil => exact absurd (List.cons.inj split).1 colon
      | cons c inner =>
          rw [kept, List.length_append, List.length_cons]
          omega
    · cases inner with
      | nil => exact absurd (List.cons.inj split).1.symm colon
      | cons c inner =>
          have inside : b ∈ digits := (List.cons.inj split).2 ▸ by simp
          rw [port b inside] at other
          cases other
  · rw [same, List.length_append, List.length_cons]
    omega

/-- Around a host, what is no part of a port makes another host. -/
theorem withoutPort_surrounded {after : List UInt8} (absent : 58 ∉ before)
    (other : ∀ b ∈ after, isAsciiDigit b = false ∧ b ≠ 58) :
    withoutPort (before ++ host ++ after) = withoutPort host ↔ before = [] ∧ after = [] := by
  constructor
  · intro same
    have lengths := congrArg List.length same
    have most := length_withoutPort_le host
    rcases List.eq_nil_or_concat after with rfl | ⟨front, b, rfl⟩
    · rw [List.append_nil, withoutPort_append absent, List.length_append] at lengths
      exact ⟨List.length_eq_zero_iff.mp (by omega), rfl⟩
    · obtain ⟨digit, colon⟩ := other b (by simp)
      have least : (before ++ host ++ front).length <
          (withoutPort (before ++ host ++ front ++ b :: [])).length :=
        withoutPort_keeps digit colon
      rw [List.append_assoc _ front, ← List.concat_eq_append, lengths, List.length_append,
        List.length_append] at least
      omega
  · rintro ⟨rfl, rfl⟩
    rw [List.nil_append, List.append_nil]

theorem isAsciiDigit_asciiLower (b : UInt8) : isAsciiDigit (asciiLower b) = isAsciiDigit b := by
  have all : ∀ n < 256,
      isAsciiDigit (asciiLower (UInt8.ofNat n)) = isAsciiDigit (UInt8.ofNat n) := by decide +kernel
  have here := all b.toNat (UInt8.toNat_lt b)
  rwa [UInt8.ofNat_toNat] at here

theorem eq_colon_of_lower {b : UInt8} (lower : asciiLower b = 58) : b = 58 := by
  have all : ∀ n < 256, asciiLower (UInt8.ofNat n) = 58 → UInt8.ofNat n = 58 := by decide +kernel
  have here := all b.toNat (UInt8.toNat_lt b)
  rw [UInt8.ofNat_toNat] at here
  exact here lower

theorem colon_not_mem_lower (absent : 58 ∉ host) : 58 ∉ host.map asciiLower := by
  intro member
  obtain ⟨b, inside, lower⟩ := List.mem_map.mp member
  exact absent (eq_colon_of_lower lower ▸ inside)

/-- Lowering letters and taking the port away commute. -/
theorem withoutPort_map_lower (host : List UInt8) :
    withoutPort (host.map asciiLower) = (withoutPort host).map asciiLower := by
  rcases withoutPort_cases host with ⟨digits, whole, port⟩ | ⟨same, portless⟩
  · have lowered : ∀ d ∈ digits.map asciiLower, isAsciiDigit d = true := by
      intro d member
      obtain ⟨b, inside, rfl⟩ := List.mem_map.mp member
      rw [isAsciiDigit_asciiLower]
      exact port b inside
    have cut : host.map asciiLower =
        (withoutPort host).map asciiLower ++ 58 :: digits.map asciiLower := by
      rw [whole, withoutPort_port port, List.map_append, List.map_cons]
      rfl
    rw [cut, withoutPort_port lowered]
  · rw [same]
    rcases withoutPort_cases (host.map asciiLower) with ⟨digits, whole, port⟩ | ⟨kept, _⟩
    · obtain ⟨front, back, rfl, start, end_⟩ := List.map_eq_append_iff.mp whole
      obtain ⟨b, more, rfl, colon, rest⟩ := List.map_eq_cons_iff.mp end_
      obtain rfl := eq_colon_of_lower colon
      refine absurd (fun d member => ?_) (portless front more rfl)
      rw [← isAsciiDigit_asciiLower]
      exact port _ (rest ▸ List.mem_map_of_mem member)
    · exact kept

end

end StormLb.Net.Rfc9112
