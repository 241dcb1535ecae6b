import StormLb.Text.Str

/-!
# The request head

What the router reads in the head of a request: where it ends, the host it is
for, the path and target of its request line.
-/

namespace StormLb.Router

open StormLb.Text

def newline : UInt8 := 10

/-- The blank line at the end of a head. -/
def blankLine : List UInt8 :=
  [13, 10, 13, 10]

/-- Where the head ends, once the blank line was read. -/
def findHeadEnd : List UInt8 → Option Nat
  | [] => none
  | b :: rest =>
      if blankLine <+: b :: rest then some 4 else (findHeadEnd rest).map (· + 1)

theorem findHeadEnd_le {head : List UInt8} {headEnd : Nat}
    (found : findHeadEnd head = some headEnd) : 4 ≤ headEnd ∧ headEnd ≤ head.length := by
  induction head generalizing headEnd with
  | nil => cases found
  | cons b rest ih =>
      rw [findHeadEnd] at found
      split at found
      · rename_i here
        obtain rfl := Option.some.inj found
        exact ⟨Nat.le_refl 4, here.length_le⟩
      · obtain ⟨inner, further, rfl⟩ := Option.map_eq_some_iff.mp found
        have bounds := ih further
        rw [List.length_cons]
        omega

/-- What follows a complete head does not move its end. -/
theorem findHeadEnd_append {head : List UInt8} {headEnd : Nat} (more : List UInt8)
    (found : findHeadEnd head = some headEnd) : findHeadEnd (head ++ more) = some headEnd := by
  induction head generalizing headEnd with
  | nil => cases found
  | cons b rest ih =>
      rw [List.cons_append, findHeadEnd]
      have within := (findHeadEnd_le found).2
      rw [findHeadEnd] at found
      split at found
      · rename_i here
        have longer : blankLine <+: b :: (rest ++ more) := here.trans (List.prefix_append _ _)
        rw [if_pos longer, found]
      · rename_i further
        obtain ⟨inner, deeper, rfl⟩ := Option.map_eq_some_iff.mp found
        have bounds := findHeadEnd_le deeper
        have apart : ¬ blankLine <+: b :: (rest ++ more) := by
          intro here
          refine further (List.prefix_of_prefix_length_le here (List.prefix_append _ more) ?_)
          change 4 ≤ rest.length + 1
          omega
        rw [if_neg apart, ih deeper]
        rfl

/-- The end is found as soon as it was read. -/
theorem findHeadEnd_of_append {head more : List UInt8} {headEnd : Nat}
    (found : findHeadEnd (head ++ more) = some headEnd) (within : headEnd ≤ head.length) :
    findHeadEnd head = some headEnd := by
  induction head generalizing headEnd with
  | nil =>
      have bounds := findHeadEnd_le found
      rw [List.length_nil] at within
      omega
  | cons b rest ih =>
      rw [List.cons_append, findHeadEnd] at found
      rw [findHeadEnd]
      split at found
      · rename_i here
        obtain rfl := Option.some.inj found
        rw [if_pos (List.prefix_of_prefix_length_le here (List.prefix_append (b :: rest) more) within)]
      · rename_i further
        obtain ⟨inner, deeper, rfl⟩ := Option.map_eq_some_iff.mp found
        rw [List.length_cons] at within
        have apart : ¬ blankLine <+: b :: rest :=
          fun here => further (here.trans (List.prefix_append (b :: rest) more))
        rw [if_neg apart, ih deeper (by omega)]
        rfl

/-- A part in which no head ends stops short of where the whole's head does. -/
theorem length_lt_of_incomplete {part whole : List UInt8} {headEnd : Nat} (cut : part <+: whole)
    (complete : findHeadEnd whole = some headEnd) (incomplete : findHeadEnd part = none) :
    part.length < headEnd := by
  obtain ⟨rest, rfl⟩ := cut
  by_contra long
  rw [findHeadEnd_of_append complete (Nat.le_of_not_lt long)] at incomplete
  cases incomplete

/-! ## The host -/

/-- A host without its port, if what follows the last colon can be one. -/
def stripPort (host : List Char) : List Char :=
  match rsplitOnce ':' host with
  | some (name, port) => if port.all Char.isDigit then name else host
  | none => host

/-- The host of the first `host` line, before any blank or undecodable line. -/
def hostIn : List (List UInt8) → Option (List Char)
  | [] => none
  | bytes :: rest =>
      match fromUtf8 bytes with
      | none => none
      | some text =>
          let line := trim text
          if line = [] then none
          else
            match splitOnce ':' line with
            | some (name, value) =>
                if eqIgnoreAsciiCase (trim name) "host".toList then
                  some (stripPort (toAsciiLowercase (trim value)))
                else hostIn rest
            | none => hostIn rest

/-- The Host header's value, lowercased, its port stripped. -/
def hostOf (head : List UInt8) : Option String :=
  (hostIn ((head.splitOn newline).drop 1)).map String.ofList

/-! ## The request line -/

/-- The second word of the request line. -/
def requestWord (head : List UInt8) : Option (List Char) := do
  let line ← (head.splitOn newline).head?
  let text ← fromUtf8 line
  (splitWhitespace text)[1]?

/-- The path of the request, without its query. -/
def requestPath (head : List UInt8) : Option String :=
  (requestWord head).map fun word => String.ofList (word.takeWhile (· ≠ '?'))

/-- The target of the request: the path and its query. -/
def requestTarget (head : List UInt8) : Option String :=
  ((requestWord head).filter (·.head? = some '/')).map String.ofList

/-! ## The head that is forwarded -/

def forwardedProto : List UInt8 :=
  bytesOf "X-Forwarded-Proto: https\r\n"

/-- A line of the head that claims a scheme. -/
def claimsProto (line : List UInt8) : Bool :=
  (line.takeWhile (· ≠ 58)).map asciiLower = bytesOf "x-forwarded-proto"

/--
The head with `X-Forwarded-Proto: https` after the request line instead of any
the client sent, and what followed the head.
-/
def forwardedHttps (head : List UInt8) (headEnd : Nat) : List UInt8 :=
  let lines := splitInclusive newline (head.take headEnd)
  lines.head?.getD [] ++ forwardedProto ++ (lines.tail.filter (!claimsProto ·)).flatten ++
    head.drop headEnd

/-- What follows the head is forwarded as it is. -/
theorem forwardedHttps_append {head : List UInt8} {headEnd : Nat} (within : headEnd ≤ head.length)
    (more : List UInt8) :
    forwardedHttps (head ++ more) headEnd = forwardedHttps head headEnd ++ more := by
  simp only [forwardedHttps, List.take_append_of_le_length within,
    List.drop_append_of_le_length within, List.append_assoc]

/-- `200` of `HTTP/1.1 200 OK`; digits in the last places are characters of their own. -/
def statusCode (bytes : List UInt8) : Option String :=
  let first := bytes.take 12
  let code := first.drop 9
  if first.length = 12 ∧ (fromUtf8 first).isSome ∧ bytesOf "HTTP/1." <+: first ∧
      code.all isAsciiDigit then
    some (String.ofList (code.map fun b => Char.ofNat b.toNat))
  else none

end StormLb.Router
