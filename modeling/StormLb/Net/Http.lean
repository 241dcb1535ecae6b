import StormLb.Text.Str

/-!
# HTTP responses

A response as it stands on the wire: a status line and header lines that each end
with CRLF and have no other CR or LF and no NUL in them, a blank line, and as many
bytes of body as the content-length says.  The lines of such a stream are found
again in only one way.
-/

namespace StormLb.Net

open StormLb.Text

/-! ## Lines -/

def crlf : List UInt8 :=
  [13, 10]

/-- Neither CR nor LF nor NUL. -/
def Clean (line : List UInt8) : Prop :=
  ∀ b ∈ line, b ≠ 13 ∧ b ≠ 10 ∧ b ≠ 0

instance (line : List UInt8) : Decidable (Clean line) :=
  inferInstanceAs (Decidable (∀ b ∈ line, b ≠ 13 ∧ b ≠ 10 ∧ b ≠ 0))

/-- No LF, and no CR at the end: a line that CRLF can end. -/
def Endable (line : List UInt8) : Prop :=
  10 ∉ line ∧ line.getLast? ≠ some 13

instance (line : List UInt8) : Decidable (Endable line) :=
  inferInstanceAs (Decidable (10 ∉ line ∧ line.getLast? ≠ some 13))

section

variable {first second line : List UInt8}

theorem clean_append : Clean (first ++ second) ↔ Clean first ∧ Clean second :=
  List.forall_mem_append

theorem clean_cons {b : UInt8} :
    Clean (b :: line) ↔ (b ≠ 13 ∧ b ≠ 10 ∧ b ≠ 0) ∧ Clean line :=
  List.forall_mem_cons

/-- The first line of a stream is a clean line, or that is not the first line of the stream. -/
theorem line_unique {rest more : List UInt8} (clean : Clean line) (endable : Endable first)
    (same : line ++ (crlf ++ rest) = first ++ (crlf ++ more)) : line = first ∧ rest = more := by
  obtain ⟨noLf, last⟩ := endable
  rcases List.append_eq_append_iff.mp same with ⟨longer, rfl, tail⟩ | ⟨longer, rfl, tail⟩
  · cases longer with
    | nil =>
        refine ⟨(List.append_nil line).symm, ?_⟩
        exact List.append_cancel_left tail
    | cons b longer =>
        obtain ⟨rfl, tail⟩ := List.cons.inj tail
        cases longer with
        | nil => exact absurd List.getLast?_concat last
        | cons c longer =>
            have feed : c = 10 := (List.cons.inj (List.cons.inj tail).2).1.symm
            exact absurd (by simp [feed]) noLf
  · cases longer with
    | nil =>
        refine ⟨List.append_nil first, ?_⟩
        exact (List.append_cancel_left tail).symm
    | cons b longer =>
        obtain ⟨rfl, _⟩ := List.cons.inj tail
        exact absurd rfl (clean 13 (by simp)).1

end

/-! ## Header fields -/

/-- A header field; the white space around its value counts as part of it. -/
structure HeaderField where
  name : List UInt8
  value : List UInt8
  named : name ≠ []
  noColon : 58 ∉ name
  cleanName : Clean name
  cleanValue : Clean value

namespace HeaderField

variable (field : HeaderField)

def line : List UInt8 :=
  field.name ++ 58 :: field.value

def isLength : Bool :=
  field.name.map asciiLower = bytesOf "content-length"

/-- The value without the blanks around it. -/
def content : List UInt8 :=
  (field.value.dropWhile isBlank).rdropWhile isBlank
where
  isBlank (b : UInt8) : Bool := b = 32 ∨ b = 9

theorem clean_line : Clean field.line :=
  clean_append.mpr ⟨field.cleanName, clean_cons.mpr ⟨by decide, field.cleanValue⟩⟩

/-- A value with one blank before it. -/
theorem content_eq {text : List UInt8} (solid : ∀ b ∈ text, content.isBlank b = false)
    (value : field.value = 32 :: text) : field.content = text := by
  have start : (32 :: text).dropWhile content.isBlank = text := by
    rw [List.dropWhile_cons_of_pos (by decide)]
    cases text with
    | nil => rfl
    | cons b text =>
        exact List.dropWhile_cons_of_neg (Bool.not_eq_true _ ▸ solid b List.mem_cons_self)
  have finish : text.reverse.dropWhile content.isBlank = text.reverse := by
    cases last : text.reverse with
    | nil => rfl
    | cons b rest =>
        have member : b ∈ text := List.mem_reverse.mp (last ▸ List.mem_cons_self)
        exact List.dropWhile_cons_of_neg (Bool.not_eq_true _ ▸ solid b member)
  rw [content, value, start, List.rdropWhile, finish, List.reverse_reverse]

end HeaderField

/-! ## Responses -/

/-- A response of HTTP/1.1 with one content-length, that of its body. -/
structure HttpResponse where
  code : List UInt8
  reason : List UInt8
  fields : List HeaderField
  body : List UInt8
  threeDigits : code.length = 3 ∧ code.all isAsciiDigit = true
  cleanReason : Clean reason
  sized : (fields.filter HeaderField.isLength).map HeaderField.content =
    [bytesOf (toString body.length)]

namespace HttpResponse

variable (response : HttpResponse)

def statusLine : List UInt8 :=
  bytesOf "HTTP/1.1 " ++ response.code ++ 32 :: response.reason

def head : List UInt8 :=
  response.fields.flatMap fun field => field.line ++ crlf

def bytes : List UInt8 :=
  response.statusLine ++ (crlf ++ (response.head ++ (crlf ++ response.body)))

/-- An ASCII digit ends no line. -/
theorem clean_of_digits {digits : List UInt8} (all : digits.all isAsciiDigit = true) :
    Clean digits := by
  intro b member
  have digit := List.all_eq_true.mp all b member
  refine ⟨?_, ?_, ?_⟩
  · rintro rfl
    exact absurd digit (by decide)
  · rintro rfl
    exact absurd digit (by decide)
  · rintro rfl
    exact absurd digit (by decide)

theorem clean_statusLine : Clean response.statusLine := by
  have version : Clean (bytesOf "HTTP/1.1 ") := by decide +kernel
  exact clean_append.mpr ⟨clean_append.mpr ⟨version, clean_of_digits response.threeDigits.2⟩,
    clean_cons.mpr ⟨by decide, response.cleanReason⟩⟩

/-- What stands in the place of a response's first header line is a clean line. -/
theorem clean_of_bytes_eq {status line rest : List UInt8} (endableStatus : Endable status)
    (endable : Endable line) (nonempty : line ≠ [])
    (same : response.bytes = status ++ (crlf ++ (line ++ (crlf ++ rest)))) : Clean line := by
  obtain ⟨_, later⟩ := line_unique response.clean_statusLine endableStatus same
  cases fields : response.fields with
  | nil =>
      -- A blank line would stand there.
      rw [head, fields, List.flatMap_nil] at later
      have empty : Clean [] := fun b member => absurd member List.not_mem_nil
      have blank := @line_unique _ [] _ _ empty endable later
      exact absurd blank.1.symm nonempty
  | cons field more =>
      rw [head, fields, List.flatMap_cons, List.append_assoc, List.append_assoc] at later
      obtain ⟨rfl, _⟩ := line_unique field.clean_line endable later
      exact field.clean_line

end HttpResponse

/-! ## The decimal text of a length -/

theorem bytesOf_toString_digits (n : Nat) : (bytesOf (toString n)).all isAsciiDigit = true := by
  have encode : ∀ c : Char, c.isDigit = true → (String.utf8EncodeChar c).all isAsciiDigit = true := by
    intro c digit
    have all : ∀ m < 58, (Char.ofNat m).isDigit = true →
        (String.utf8EncodeChar (Char.ofNat m)).all isAsciiDigit = true := by decide +kernel
    have most := (Bool.and_eq_true _ _ ▸ digit : _ ∧ _).2
    have small : c.toNat < 58 := Nat.lt_succ_of_le (UInt32.le_iff_toNat_le.mp (of_decide_eq_true most))
    rw [← Char.ofNat_toNat c] at digit ⊢
    exact all c.toNat small digit
  refine List.all_eq_true.mpr fun b member => ?_
  obtain ⟨c, inside, here⟩ := List.mem_flatMap.mp member
  have text : (toString n).toList = Nat.toDigits 10 n := Nat.toList_repr
  rw [text] at inside
  have digit := Nat.isDigit_of_mem_toDigits (by decide) (by decide) inside
  exact List.all_eq_true.mp (encode c digit) b here

theorem isBlank_of_digit {b : UInt8} (digit : isAsciiDigit b = true) :
    HeaderField.content.isBlank b = false := by
  cases blank : HeaderField.content.isBlank b with
  | false => rfl
  | true =>
      rcases of_decide_eq_true blank with rfl | rfl
      · exact absurd digit (by decide)
      · exact absurd digit (by decide)

/-- The content-length of so many bytes. -/
def lengthField (n : Nat) : HeaderField where
  name := bytesOf "content-length"
  value := 32 :: bytesOf (toString n)
  named := by decide +kernel
  noColon := by decide +kernel
  cleanName := by decide +kernel
  cleanValue := clean_cons.mpr
    ⟨by decide, HttpResponse.clean_of_digits (bytesOf_toString_digits n)⟩

theorem lengthField_content (n : Nat) : (lengthField n).content = bytesOf (toString n) :=
  (lengthField n).content_eq
    (fun b member => isBlank_of_digit (List.all_eq_true.mp (bytesOf_toString_digits n) b member)) rfl

theorem lengthField_isLength (n : Nat) : (lengthField n).isLength = true := by
  have same : (bytesOf "content-length").map asciiLower = bytesOf "content-length" := by
    decide +kernel
  exact decide_eq_true same

end StormLb.Net
