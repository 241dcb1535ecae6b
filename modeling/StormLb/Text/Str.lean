import Mathlib.Data.List.DropRight
import StormLb.Text.Utf8

/-!
# Operations on text

The string operations of Rust's standard library that the program calls, on
lists of characters and, where it works on bytes, on lists of bytes.
-/

namespace StormLb.Text

/-! ## Characters -/

/-- The White_Space property of Unicode. -/
def isWhitespace (c : Char) : Bool :=
  let n := c.toNat
  (9 ≤ n ∧ n ≤ 13) ∨ n = 0x20 ∨ n = 0x85 ∨ n = 0xa0 ∨ n = 0x1680 ∨ (0x2000 ≤ n ∧ n ≤ 0x200a) ∨
    n = 0x2028 ∨ n = 0x2029 ∨ n = 0x202f ∨ n = 0x205f ∨ n = 0x3000

def toAsciiLowercase (text : List Char) : List Char :=
  text.map Char.toLower

def eqIgnoreAsciiCase (first second : List Char) : Bool :=
  toAsciiLowercase first = toAsciiLowercase second

/-- `to_ascii_lowercase` of a string. -/
def lowercase (text : String) : String :=
  String.ofList (toAsciiLowercase text.toList)

/-- The bytes of a string. -/
def bytesOf (text : String) : List UInt8 :=
  utf8 text.toList

/-! ## Trimming and splitting -/

def trim (text : List Char) : List Char :=
  (text.dropWhile isWhitespace).rdropWhile isWhitespace

/-- What stands before and after the first `separator`. -/
def splitOnce (separator : Char) : List Char → Option (List Char × List Char)
  | [] => none
  | c :: rest =>
      if c = separator then some ([], rest)
      else (splitOnce separator rest).map fun (before, after) => (c :: before, after)

/-- What stands before and after the last `separator`. -/
def rsplitOnce (separator : Char) (text : List Char) : Option (List Char × List Char) :=
  (splitOnce separator text.reverse).map fun (after, before) => (before.reverse, after.reverse)

/-- The words between stretches of white space. -/
def splitWhitespace (text : List Char) : List (List Char) :=
  (text.splitOnP isWhitespace).filter (· ≠ [])

/-- `strip_prefix` -/
def stripPrefix (lead text : List Char) : Option (List Char) :=
  if lead <+: text then some (text.drop lead.length) else none

/-- `&text[at..]`: nothing when `at` is past the end or inside a character, where Rust panics. -/
def sliceFrom : Nat → List Char → Option (List Char)
  | 0, text => some text
  | _ + 1, [] => none
  | position + 1, c :: rest =>
      if c.utf8Size ≤ position + 1 then sliceFrom (position + 1 - c.utf8Size) rest else none

theorem stripPrefix_eq_some_iff {lead text rest : List Char} :
    stripPrefix lead text = some rest ↔ text = lead ++ rest := by
  unfold stripPrefix
  constructor
  · intro stripped
    split at stripped
    · rename_i leads
      cases stripped
      exact (List.prefix_iff_eq_append.mp leads).symm
    · cases stripped
  · rintro rfl
    rw [if_pos (List.prefix_append _ _), List.drop_left]

/-- A slice from the second byte on starts after a character of one byte. -/
theorem sliceFrom_one (c : Char) (rest : List Char) :
    sliceFrom 1 (c :: rest) = if c.utf8Size = 1 then some rest else none := by
  have positive := c.utf8Size_pos
  by_cases ascii : c.utf8Size = 1
  · have none_left : 0 + 1 - c.utf8Size = 0 := by omega
    rw [sliceFrom, if_pos (by omega), if_pos ascii, none_left, sliceFrom]
  · rw [sliceFrom, if_neg (by omega), if_neg ascii]

/-- The pieces that end with `separator`, and what is left after the last one. -/
def splitInclusive (separator : UInt8) : List UInt8 → List (List UInt8)
  | [] => []
  | b :: rest =>
      if b = separator then [b] :: splitInclusive separator rest
      else
        match splitInclusive separator rest with
        | [] => [[b]]
        | piece :: more => (b :: piece) :: more

/-! ## ASCII bytes -/

def asciiLower (b : UInt8) : UInt8 :=
  if 65 ≤ b ∧ b ≤ 90 then b + 32 else b

def isAsciiDigit (b : UInt8) : Bool :=
  48 ≤ b ∧ b ≤ 57

example : splitInclusive 10 [97, 10, 10, 98] = [[97, 10], [10], [98]] := by decide

end StormLb.Text
