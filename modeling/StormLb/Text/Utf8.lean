import Mathlib.Data.List.Basic

/-!
# Text as bytes

A text is a list of characters.  Decoding accepts exactly the encodings, so a
byte string is one text or none.
-/

namespace StormLb.Text

/-- The bytes of a text. -/
def utf8 (text : List Char) : List UInt8 :=
  text.flatMap String.utf8EncodeChar

@[simp] theorem utf8_nil : utf8 [] = [] :=
  rfl

@[simp] theorem utf8_cons (c : Char) (text : List Char) :
    utf8 (c :: text) = String.utf8EncodeChar c ++ utf8 text :=
  rfl

@[simp] theorem utf8_append (first second : List Char) :
    utf8 (first ++ second) = utf8 first ++ utf8 second :=
  List.flatMap_append

/-- The first character of a byte string. -/
def decodeChar (bytes : List UInt8) : Option Char :=
  bytes.toByteArray.utf8DecodeChar? 0

theorem decodeChar_encode (c : Char) (rest : List UInt8) :
    decodeChar (String.utf8EncodeChar c ++ rest) = some c := by
  rw [decodeChar, List.toByteArray_append]
  exact ByteArray.utf8DecodeChar?_utf8EncodeChar_append

theorem encode_of_decodeChar {bytes : List UInt8} {c : Char} (decoded : decodeChar bytes = some c) :
    ∃ rest, bytes = String.utf8EncodeChar c ++ rest := by
  obtain ⟨rest, split⟩ := ByteArray.exists_of_utf8DecodeChar?_eq_some decoded
  refine ⟨rest.data.toList, ?_⟩
  rw [← List.toByteArray_inj, List.toByteArray_append, split]
  congr 1
  ext1
  simp

/-- Decode at most `fuel` characters. -/
def decodeUpTo : Nat → List UInt8 → Option (List Char)
  | _, [] => some []
  | 0, _ :: _ => none
  | fuel + 1, b :: bytes => do
      let c ← decodeChar (b :: bytes)
      let text ← decodeUpTo fuel ((b :: bytes).drop c.utf8Size)
      return c :: text

/-- The text of a byte string, if it is one; every character takes a byte at least. -/
def fromUtf8 (bytes : List UInt8) : Option (List Char) :=
  decodeUpTo bytes.length bytes

theorem decodeUpTo_utf8 {fuel : Nat} {text : List Char} (enough : text.length ≤ fuel) :
    decodeUpTo fuel (utf8 text) = some text := by
  induction text generalizing fuel with
  | nil => cases fuel <;> rfl
  | cons c text ih =>
      obtain ⟨b, bytes, split⟩ : ∃ b bytes, utf8 (c :: text) = b :: bytes := by
        refine List.exists_cons_of_ne_nil fun empty => ?_
        have none := congrArg List.length empty
        simp only [utf8_cons, List.length_append, String.length_utf8EncodeChar,
          List.length_nil] at none
        have := c.utf8Size_pos
        omega
      cases fuel with
      | zero => simp at enough
      | succ fuel =>
          have first : decodeChar (b :: bytes) = some c := by
            rw [← split]
            exact decodeChar_encode c (utf8 text)
          have rest : (b :: bytes).drop c.utf8Size = utf8 text := by
            rw [← split, ← String.length_utf8EncodeChar]
            exact List.drop_left
          simp only [split, decodeUpTo, first, Option.bind_eq_bind, Option.bind_some, rest,
            ih (Nat.le_of_succ_le_succ enough), Option.pure_def]

theorem utf8_of_decodeUpTo {fuel : Nat} {bytes : List UInt8} {text : List Char}
    (decoded : decodeUpTo fuel bytes = some text) : utf8 text = bytes := by
  induction fuel generalizing bytes text with
  | zero =>
      cases bytes with
      | nil =>
          cases decoded
          rfl
      | cons b bytes => cases decoded
  | succ fuel ih =>
      cases bytes with
      | nil =>
          cases decoded
          rfl
      | cons b bytes =>
          simp only [decodeUpTo, Option.bind_eq_bind, Option.bind_eq_some_iff, Option.pure_def,
            Option.some.injEq] at decoded
          obtain ⟨c, first, rest, decoded, rfl⟩ := decoded
          obtain ⟨later, split⟩ := encode_of_decodeChar first
          rw [split, ← String.length_utf8EncodeChar, List.drop_left] at decoded
          rw [utf8_cons, ih decoded, split]

theorem length_le_utf8_length (text : List Char) : text.length ≤ (utf8 text).length := by
  induction text with
  | nil => exact Nat.le_refl _
  | cons c text ih =>
      have := c.utf8Size_pos
      simp
      omega

/-- A byte string decodes to a text exactly when it is its encoding. -/
theorem fromUtf8_eq_some_iff {bytes : List UInt8} {text : List Char} :
    fromUtf8 bytes = some text ↔ utf8 text = bytes := by
  constructor
  · exact utf8_of_decodeUpTo
  · rintro rfl
    exact decodeUpTo_utf8 (length_le_utf8_length text)

theorem utf8_inj {first second : List Char} : utf8 first = utf8 second ↔ first = second := by
  constructor
  · intro same
    have decoded := fromUtf8_eq_some_iff.mpr same.symm
    rw [fromUtf8_eq_some_iff.mpr rfl] at decoded
    exact Option.some.inj decoded
  · exact congrArg utf8

end StormLb.Text
