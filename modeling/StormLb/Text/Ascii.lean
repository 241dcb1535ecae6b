import StormLb.Text.Str

/-!
# ASCII in UTF-8

A byte below 128 stands for one character and is part of no other, so a text can
be cut at such a byte before or after it is decoded.
-/

namespace StormLb.Text

/-! ## One character -/

theorem le_or (byte mark : UInt8) : mark ≤ byte ||| mark := by
  rw [UInt8.le_iff_toNat_le, UInt8.toNat_or]
  exact Nat.right_le_or

/-- A byte of a longer encoding is no ASCII byte. -/
theorem encode_of_mem_of_lt {c : Char} {b : UInt8} (member : b ∈ String.utf8EncodeChar c)
    (ascii : b < 128) : String.utf8EncodeChar c = [b] := by
  have marked {byte mark : UInt8} (high : 128 ≤ mark) : b ≠ byte ||| mark := by
    rintro rfl
    exact absurd (UInt8.le_trans high (le_or byte mark)) (UInt8.not_le.mpr ascii)
  have size : c.utf8Size = 1 ∨ c.utf8Size = 2 ∨ c.utf8Size = 3 ∨ c.utf8Size = 4 := by
    have least := c.utf8Size_pos
    have most := c.utf8Size_le_four
    omega
  rcases size with one | two | three | four
  · rw [String.utf8EncodeChar_eq_singleton one] at member ⊢
    rw [List.mem_singleton.mp member]
  · rw [String.utf8EncodeChar_eq_cons_cons two] at member
    simp [marked] at member
  · rw [String.utf8EncodeChar_eq_cons_cons_cons three] at member
    simp [marked] at member
  · rw [String.utf8EncodeChar_eq_cons_cons_cons_cons four] at member
    simp [marked] at member

theorem encode_inj {c d : Char} (same : String.utf8EncodeChar c = String.utf8EncodeChar d) :
    c = d := by
  have decoded := decodeChar_encode c []
  rw [same, decodeChar_encode] at decoded
  exact (Option.some.inj decoded).symm

/-- An ASCII byte as a character. -/
def asciiChar (b : UInt8) : Char :=
  Char.ofNat b.toNat

/-- What holds of every code below 128 holds of every such byte. -/
theorem of_codes {P : UInt8 → Prop} (all : ∀ n < 128, P (UInt8.ofNat n)) {b : UInt8}
    (ascii : b < 128) : P b := by
  have here := all b.toNat (UInt8.lt_iff_toNat_lt.mp ascii)
  rwa [UInt8.ofNat_toNat] at here

theorem encode_asciiChar {b : UInt8} (ascii : b < 128) :
    String.utf8EncodeChar (asciiChar b) = [b] :=
  of_codes (P := fun b => String.utf8EncodeChar (asciiChar b) = [b]) (by decide +kernel) ascii

/-- A character with an ASCII byte is that byte's. -/
theorem eq_asciiChar_of_mem {c : Char} {b : UInt8} (member : b ∈ String.utf8EncodeChar c)
    (ascii : b < 128) : c = asciiChar b :=
  encode_inj ((encode_of_mem_of_lt member ascii).trans (encode_asciiChar ascii).symm)

theorem toLower_asciiChar {b : UInt8} (ascii : b < 128) :
    (asciiChar b).toLower = asciiChar (asciiLower b) :=
  of_codes (P := fun b => (asciiChar b).toLower = asciiChar (asciiLower b)) (by decide +kernel) ascii

/-! ## A text -/

theorem fromUtf8_utf8 (text : List Char) : fromUtf8 (utf8 text) = some text :=
  fromUtf8_eq_some_iff.mpr rfl

/-- An ASCII character is in a text if and only if its byte is in the bytes. -/
theorem mem_utf8_iff {c : Char} {b : UInt8} (ascii : b < 128)
    (encode : String.utf8EncodeChar c = [b]) {text : List Char} : b ∈ utf8 text ↔ c ∈ text := by
  rw [utf8, List.mem_flatMap]
  constructor
  · rintro ⟨d, member, inside⟩
    rwa [encode_inj (encode.trans (encode_of_mem_of_lt inside ascii).symm)]
  · intro member
    refine ⟨c, member, ?_⟩
    rw [encode]
    exact List.mem_singleton_self b

/-- Bytes that are a text, cut at an ASCII byte, are two texts. -/
theorem exists_of_utf8_eq {text : List Char} {before after : List UInt8} {b : UInt8}
    (ascii : b < 128) (whole : utf8 text = before ++ b :: after) :
    ∃ first last, text = first ++ asciiChar b :: last ∧ utf8 first = before ∧
      utf8 last = after := by
  induction text generalizing before with
  | nil => cases before <;> cases whole
  | cons c text ih =>
      rw [utf8_cons] at whole
      rcases List.append_eq_append_iff.mp whole with ⟨more, split, rest⟩ | ⟨inner, split, rest⟩
      · obtain ⟨first, last, rfl, start, end_⟩ := ih rest
        refine ⟨c :: first, last, rfl, ?_, end_⟩
        rw [utf8_cons, start, split]
      · cases inner with
        | nil =>
            have rest : utf8 text = [] ++ b :: after := rest.symm
            obtain ⟨first, last, rfl, start, end_⟩ := ih rest
            refine ⟨c :: first, last, rfl, ?_, end_⟩
            rw [utf8_cons, start, split, List.append_nil, List.append_nil]
        | cons head inner =>
            obtain ⟨rfl, rest⟩ := List.cons.inj rest
            have member : b ∈ String.utf8EncodeChar c := by
              rw [split]
              simp
            have alone := encode_of_mem_of_lt member ascii
            rw [alone] at split
            cases before with
            | nil =>
                obtain ⟨_, rfl⟩ := List.cons.inj split
                refine ⟨[], text, ?_, rfl, (List.cons.inj rest).2.symm⟩
                rw [encode_inj (alone.trans (encode_asciiChar ascii).symm)]
                rfl
            | cons byte before => simp at split

/-- Around an ASCII byte, bytes are a text if and only if they are on both sides. -/
theorem fromUtf8_append_cons {before after : List UInt8} {b : UInt8} (ascii : b < 128) :
    fromUtf8 (before ++ b :: after) =
      (fromUtf8 before).bind fun first => (fromUtf8 after).map fun last =>
        first ++ asciiChar b :: last := by
  have joined {first last : List Char} :
      utf8 (first ++ asciiChar b :: last) = utf8 first ++ b :: utf8 last := by
    rw [utf8_append, utf8_cons, encode_asciiChar ascii]
    rfl
  cases whole : fromUtf8 (before ++ b :: after) with
  | some text =>
      obtain ⟨first, last, rfl, rfl, rfl⟩ := exists_of_utf8_eq ascii (fromUtf8_eq_some_iff.mp whole)
      rw [fromUtf8_utf8, fromUtf8_utf8]
      rfl
  | none =>
      cases start : fromUtf8 before with
      | none => rfl
      | some first =>
          cases end_ : fromUtf8 after with
          | none => rfl
          | some last =>
              rw [← fromUtf8_eq_some_iff.mp start, ← fromUtf8_eq_some_iff.mp end_, ← joined,
                fromUtf8_utf8] at whole
              cases whole

theorem utf8_map_asciiChar {bytes : List UInt8} (ascii : ∀ b ∈ bytes, b < 128) :
    utf8 (bytes.map asciiChar) = bytes := by
  induction bytes with
  | nil => rfl
  | cons b bytes ih =>
      obtain ⟨here, rest⟩ := List.forall_mem_cons.mp ascii
      rw [List.map_cons, utf8_cons, encode_asciiChar here, ih rest]
      rfl

/-! ## Digits -/

theorem toNat_asciiChar {b : UInt8} (ascii : b < 128) : (asciiChar b).toNat = b.toNat :=
  of_codes (P := fun b => (asciiChar b).toNat = b.toNat) (by decide +kernel) ascii

theorem exists_asciiChar {c : Char} (small : c.toNat < 128) : ∃ b < 128, c = asciiChar b := by
  have code : (UInt8.ofNat c.toNat).toNat = c.toNat :=
    UInt8.toNat_ofNat_of_lt' (Nat.lt_trans small (by decide))
  refine ⟨UInt8.ofNat c.toNat, ?_, ?_⟩
  · rw [UInt8.lt_iff_toNat_lt, code]
    exact small
  · rw [asciiChar, code, Char.ofNat_toNat]

theorem isDigit_asciiChar {b : UInt8} (ascii : b < 128) :
    (asciiChar b).isDigit = isAsciiDigit b :=
  of_codes (P := fun b => (asciiChar b).isDigit = isAsciiDigit b) (by decide +kernel) ascii

/-- A character is a digit if and only if its bytes are. -/
theorem encode_digits_iff (c : Char) :
    (∀ b ∈ String.utf8EncodeChar c, isAsciiDigit b = true) ↔ c.isDigit = true := by
  constructor
  · intro digits
    obtain ⟨b, member⟩ := List.exists_mem_of_ne_nil _ (String.utf8EncodeChar_ne_nil (c := c))
    have digit := digits b member
    have ascii : b < 128 := UInt8.lt_of_le_of_lt (of_decide_eq_true digit).2 (by decide)
    rwa [eq_asciiChar_of_mem member ascii, isDigit_asciiChar ascii]
  · intro digit
    have most : c.toNat ≤ 57 :=
      UInt32.le_iff_toNat_le.mp (of_decide_eq_true (Bool.and_eq_true_iff.mp digit).2)
    obtain ⟨b, ascii, rfl⟩ := exists_asciiChar (c := c) (by omega)
    rw [encode_asciiChar ascii]
    exact List.forall_mem_singleton.mpr (by rwa [isDigit_asciiChar ascii] at digit)

theorem utf8_digits_iff (text : List Char) :
    (∀ b ∈ utf8 text, isAsciiDigit b = true) ↔ text.all Char.isDigit = true := by
  rw [List.all_eq_true]
  constructor
  · exact fun digits c member => (encode_digits_iff c).mp fun b inside =>
      digits b (List.mem_flatMap.mpr ⟨c, member, inside⟩)
  · intro digits b member
    obtain ⟨c, inText, inside⟩ := List.mem_flatMap.mp member
    exact (encode_digits_iff c).mpr (digits c inText) b inside

/-! ## Lower case -/

theorem asciiLower_of_le {b : UInt8} (high : 128 ≤ b) : asciiLower b = b := by
  refine if_neg fun upper => ?_
  exact absurd (UInt8.le_trans high upper.2) (by decide)

theorem encode_toLower (c : Char) :
    String.utf8EncodeChar c.toLower = (String.utf8EncodeChar c).map asciiLower := by
  by_cases small : c.toNat < 128
  · obtain ⟨b, ascii, rfl⟩ := exists_asciiChar small
    have lower : asciiLower b < 128 :=
      of_codes (P := fun b => asciiLower b < 128) (by decide +kernel) ascii
    rw [toLower_asciiChar ascii, encode_asciiChar ascii, encode_asciiChar lower]
    rfl
  · have kept : c.toLower = c := by
      refine dif_neg fun upper => small ?_
      exact Nat.lt_of_le_of_lt (UInt32.le_iff_toNat_le.mp upper.2) (by decide)
    have high (b : UInt8) (member : b ∈ String.utf8EncodeChar c) : asciiLower b = b := by
      refine asciiLower_of_le (UInt8.not_lt.mp fun ascii => small ?_)
      rw [eq_asciiChar_of_mem member ascii, toNat_asciiChar ascii]
      exact UInt8.lt_iff_toNat_lt.mp ascii
    rw [kept, List.map_congr_left high, List.map_id']

theorem utf8_toAsciiLowercase (text : List Char) :
    utf8 (toAsciiLowercase text) = (utf8 text).map asciiLower := by
  induction text with
  | nil => rfl
  | cons c text ih =>
      have step : toAsciiLowercase (c :: text) = c.toLower :: toAsciiLowercase text := rfl
      rw [step, utf8_cons, utf8_cons, encode_toLower, ih, List.map_append]

end StormLb.Text
