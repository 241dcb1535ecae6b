import StormLb.Router.Head
import StormLb.Text.Ascii
import StormLb.Text.Cut
import StormLb.Text.Lines

/-!
# The scheme that is forwarded

`forwarded_https` puts its line after the first one and drops the lines that
claim a scheme.  It knows them by their bytes up to the colon; the reading of
the host trims a name, and passes over blank lines at the front.
-/

namespace StormLb.Router

open StormLb.Text

/-! ## Lines as the reading of the host takes them -/

/-- What stands before the first colon, trimmed. -/
def lineName (line : List UInt8) : Option (List Char) :=
  if 58 ∈ line then (fromUtf8 (line.takeWhile (· ≠ 58))).map trim else none

/-- What stands after the first colon, trimmed. -/
def lineValue (line : List UInt8) : Option (List Char) :=
  (fromUtf8 ((line.dropWhile (· ≠ 58)).drop 1)).map trim

/-- A line of this name, in any case. -/
def isForwardedProto (line : List UInt8) : Bool :=
  (lineName line).any fun name => eqIgnoreAsciiCase name "x-forwarded-proto".toList

/-- Nothing but white space. -/
def isBlank (line : List UInt8) : Bool :=
  (fromUtf8 line).any fun text => trim text = []

/-- The request line, and the blank lines before it. -/
def opening (lines : List (List UInt8)) : List (List UInt8) :=
  lines.takeWhile isBlank ++ (lines.dropWhile isBlank).take 1

/-- The lines after the request line. -/
def headers (lines : List (List UInt8)) : List (List UInt8) :=
  (lines.dropWhile isBlank).drop 1

/-- The lines of a head. -/
def headLines (head : List UInt8) (headEnd : Nat) : List (List UInt8) :=
  splitInclusive newline (head.take headEnd)

/-- Where the head that is forwarded ends: what follows it is as long as before. -/
def forwardedEnd (head : List UInt8) (headEnd : Nat) : Nat :=
  (forwardedHttps head headEnd).length - (head.length - headEnd)

/-- The lines of the head that is forwarded. -/
def forwardedLines (head : List UInt8) (headEnd : Nat) : List (List UInt8) :=
  headLines (forwardedHttps head headEnd) (forwardedEnd head headEnd)

/--
The head is forwarded with one scheme line, which says https, in place of the
client's, and is otherwise the client's.
-/
structure Unforged (head : List UInt8) (headEnd : Nat) : Prop where
  rest : (forwardedHttps head headEnd).drop (forwardedEnd head headEnd) = head.drop headEnd
  request : opening (forwardedLines head headEnd) = opening (headLines head headEnd)
  one : ∃ line, (headers (forwardedLines head headEnd)).filter isForwardedProto = [line] ∧
    lineValue line = some "https".toList
  others : (headers (forwardedLines head headEnd)).filter (!isForwardedProto ·) =
    (headers (headLines head headEnd)).filter (!isForwardedProto ·)

/-- A scheme line that is not dropped. -/
def isDisguised (line : List UInt8) : Bool :=
  isForwardedProto line && !claimsProto line

/--
The head does not start with a blank line, and none of its scheme lines is
disguised; or it starts with one blank line and the very line that is put in,
and has one disguised line, which says https.
-/
def Plain (head : List UInt8) (headEnd : Nat) : Prop :=
  match headLines head headEnd with
  | [] => False
  | first :: rest =>
      if isBlank first then
        ∃ others, rest = forwardedProto :: others ∧ ∃ line, others.filter isDisguised = [line] ∧
          lineValue line = some "https".toList
      else ∀ line ∈ rest, isDisguised line = false

/-! ## What the source drops is a scheme line -/

theorem lt_of_asciiLower_lt {b : UInt8} (ascii : asciiLower b < 128) : b < 128 := by
  unfold asciiLower at ascii
  split at ascii
  · rename_i upper
    exact UInt8.lt_of_le_of_lt upper.2 (by decide)
  · exact ascii

/-- Lowering a letter does not make it white space, or anything else a letter. -/
theorem isWhitespace_of_lower {b : UInt8} (ascii : b < 128)
    (solid : isWhitespace (asciiChar (asciiLower b)) = false) :
    isWhitespace (asciiChar b) = false :=
  of_codes (P := fun b => isWhitespace (asciiChar (asciiLower b)) = false →
    isWhitespace (asciiChar b) = false) (by decide +kernel) ascii solid

/-- A name that is ASCII without white space, in any case, is read as it stands. -/
theorem lineName_of_lowered {line name : List UInt8}
    (plain : ∀ b ∈ name, (b < 128 && !isWhitespace (asciiChar b)) = true) (colon : 58 ∈ line)
    (lowered : (line.takeWhile (· ≠ 58)).map asciiLower = name) :
    ∃ text, lineName line = some text ∧ toAsciiLowercase text = name.map asciiChar := by
  have letter (b : UInt8) (member : b ∈ line.takeWhile (· ≠ 58)) :
      asciiLower b < 128 ∧ isWhitespace (asciiChar (asciiLower b)) = false := by
    simpa using plain _ (lowered ▸ List.mem_map_of_mem member)
  have ascii (b : UInt8) (member : b ∈ line.takeWhile (· ≠ 58)) : b < 128 :=
    lt_of_asciiLower_lt (letter b member).1
  have decoded : fromUtf8 (line.takeWhile (· ≠ 58)) =
      some ((line.takeWhile (· ≠ 58)).map asciiChar) :=
    fromUtf8_eq_some_iff.mpr (utf8_map_asciiChar ascii)
  have trimmed : trim ((line.takeWhile (· ≠ 58)).map asciiChar) =
      (line.takeWhile (· ≠ 58)).map asciiChar := by
    refine trim_of_solid fun c member => ?_
    obtain ⟨b, inside, rfl⟩ := List.mem_map.mp member
    exact isWhitespace_of_lower (ascii b inside) (letter b inside).2
  refine ⟨(line.takeWhile (· ≠ 58)).map asciiChar, ?_, ?_⟩
  · rw [lineName, if_pos colon, decoded, Option.map_some, trimmed]
  · rw [← lowered, toAsciiLowercase, List.map_map, List.map_map]
    exact List.map_congr_left fun b inside => toLower_asciiChar (ascii b inside)

/-- What is dropped is a scheme line. -/
theorem isForwardedProto_of_claims {line : List UInt8} (isLine : IsLine newline line)
    (claims : claimsProto line = true) : isForwardedProto line = true := by
  have lowered : (line.takeWhile (· ≠ 58)).map asciiLower = bytesOf "x-forwarded-proto" :=
    of_decide_eq_true claims
  have colon : 58 ∈ line := by
    by_contra absent
    have whole : line.takeWhile (· ≠ 58) = line :=
      List.takeWhile_eq_self_iff.mpr fun b member => decide_eq_true fun same => absent (same ▸ member)
    obtain ⟨body, _, rfl⟩ := isLine
    have ends : asciiLower newline ∈ bytesOf "x-forwarded-proto" := by
      rw [← lowered, whole]
      exact List.mem_map_of_mem (List.mem_append_right body (List.mem_singleton_self newline))
    revert ends
    decide +kernel
  have plain : ((bytesOf "x-forwarded-proto").all fun b =>
      b < 128 && !isWhitespace (asciiChar b)) = true := by decide +kernel
  obtain ⟨text, named, lower⟩ := lineName_of_lowered (List.all_eq_true.mp plain) colon lowered
  have same : (bytesOf "x-forwarded-proto").map asciiChar =
      toAsciiLowercase "x-forwarded-proto".toList := by decide +kernel
  rw [isForwardedProto, named, Option.any_some, eqIgnoreAsciiCase, lower, same]
  exact decide_eq_true rfl

/-! ## The lines that go out -/

theorem forwardedProto_isLine : IsLine newline forwardedProto := by
  refine ⟨bytesOf "X-Forwarded-Proto: https\r", ?_, ?_⟩
  · decide +kernel
  · decide +kernel

theorem forwardedProto_spec : isForwardedProto forwardedProto = true ∧
    claimsProto forwardedProto = true ∧ isBlank forwardedProto = false ∧
    lineValue forwardedProto = some "https".toList := by
  decide +kernel

/-- A head ends with a newline. -/
theorem exists_take_of_findHeadEnd {head : List UInt8} {headEnd : Nat}
    (found : findHeadEnd head = some headEnd) :
    ∃ start, head.take headEnd = start ++ [newline] := by
  induction head generalizing headEnd with
  | nil => cases found
  | cons b rest ih =>
      rw [findHeadEnd] at found
      split at found
      · rename_i here
        obtain rfl := Option.some.inj found
        have whole : (b :: rest).take 4 = blankLine := (List.prefix_iff_eq_take.mp here).symm
        exact ⟨[13, 10, 13], whole⟩
      · obtain ⟨inner, further, rfl⟩ := Option.map_eq_some_iff.mp found
        obtain ⟨start, ends⟩ := ih further
        exact ⟨b :: start, by rw [List.take_succ_cons, ends]; rfl⟩

section

variable {head : List UInt8} {headEnd : Nat}

theorem headLines_spec (found : findHeadEnd head = some headEnd) :
    (headLines head headEnd).flatten = head.take headEnd ∧
      (∀ line ∈ headLines head headEnd, IsLine newline line) ∧ headLines head headEnd ≠ [] := by
  obtain ⟨start, ends⟩ := exists_take_of_findHeadEnd found
  obtain ⟨whole, isLine⟩ := splitInclusive_spec newline start
  rw [headLines, ends]
  refine ⟨whole, isLine, fun none => ?_⟩
  rw [none] at whole
  simp at whole

theorem rest_isLine (found : findHeadEnd head = some headEnd) {first : List UInt8}
    {rest : List (List UInt8)} (lines : headLines head headEnd = first :: rest) :
    ∀ line ∈ rest, IsLine newline line := by
  intro line member
  have inside : line ∈ headLines head headEnd := by
    rw [lines]
    exact List.mem_cons_of_mem first member
  exact (headLines_spec found).2.1 line inside

/-- The lines that go out, by those that came in. -/
theorem forwardedLines_eq (found : findHeadEnd head = some headEnd) {first : List UInt8}
    {rest : List (List UInt8)} (lines : headLines head headEnd = first :: rest) :
    forwardedLines head headEnd = first :: forwardedProto :: rest.filter (!claimsProto ·) ∧
      (forwardedHttps head headEnd).drop (forwardedEnd head headEnd) = head.drop headEnd := by
  have isLine := (headLines_spec found).2.1
  rw [lines] at isLine
  have out : forwardedHttps head headEnd =
      (first :: forwardedProto :: rest.filter (!claimsProto ·)).flatten ++ head.drop headEnd := by
    rw [headLines] at lines
    simp only [forwardedHttps, lines, List.head?_cons, Option.getD_some, List.tail_cons,
      List.flatten_cons, List.append_assoc]
  have ends : forwardedEnd head headEnd =
      (first :: forwardedProto :: rest.filter (!claimsProto ·)).flatten.length := by
    rw [forwardedEnd, out, List.length_append, List.length_drop, Nat.add_sub_cancel]
  have outLines : ∀ line ∈ first :: forwardedProto :: rest.filter (!claimsProto ·),
      IsLine newline line := by
    obtain ⟨here, later⟩ := List.forall_mem_cons.mp isLine
    exact List.forall_mem_cons.mpr ⟨here, List.forall_mem_cons.mpr
      ⟨forwardedProto_isLine, fun line member => later line (List.mem_of_mem_filter member)⟩⟩
  constructor
  · rw [forwardedLines, headLines, ends, out, List.take_left, splitInclusive_flatten outLines]
  · rw [ends, out, List.drop_left]

/-- Of the lines that are kept, the scheme lines are the disguised ones. -/
theorem filter_kept (rest : List (List UInt8)) :
    (rest.filter (!claimsProto ·)).filter isForwardedProto = rest.filter isDisguised :=
  List.filter_filter

/-- Dropping the claims drops scheme lines only. -/
theorem filter_others {rest : List (List UInt8)} (isLine : ∀ line ∈ rest, IsLine newline line) :
    (rest.filter (!claimsProto ·)).filter (!isForwardedProto ·) =
      rest.filter (!isForwardedProto ·) := by
  rw [List.filter_filter]
  refine List.filter_congr fun line member => ?_
  cases claims : claimsProto line with
  | false => simp
  | true => simp [isForwardedProto_of_claims (isLine line member) claims]

/-! ## Forged or not -/

/-- Behind a first line that is not blank, only a disguised line is one too many. -/
theorem unforged_of_not_blank (found : findHeadEnd head = some headEnd) {first : List UInt8}
    {rest : List (List UInt8)} (lines : headLines head headEnd = first :: rest)
    (solid : isBlank first = false) :
    Unforged head headEnd ↔ ∀ line ∈ rest, isDisguised line = false := by
  obtain ⟨out, tail⟩ := forwardedLines_eq found lines
  obtain ⟨isProto, _, _, https⟩ := forwardedProto_spec
  have isLine := rest_isLine found lines
  have opens (more : List (List UInt8)) : opening (first :: more) = [first] := by
    simp [opening, solid]
  have heads (more : List (List UInt8)) : headers (first :: more) = more := by
    simp [headers, solid]
  constructor
  · rintro ⟨_, _, ⟨line, one, _⟩, _⟩ disguised member
    rw [out, heads, List.filter_cons_of_pos isProto, filter_kept] at one
    have none : rest.filter isDisguised = [] := (List.cons.inj one).2
    exact (Bool.not_eq_true _).mp (List.filter_eq_nil_iff.mp none disguised member)
  · intro plain
    have none : rest.filter isDisguised = [] :=
      List.filter_eq_nil_iff.mpr fun line member => by simp [plain line member]
    refine ⟨tail, ?_, ⟨forwardedProto, ?_, https⟩, ?_⟩
    · rw [out, lines, opens, opens]
    · rw [out, heads, List.filter_cons_of_pos isProto, filter_kept, none]
    · rw [out, lines, heads, heads, List.filter_cons_of_neg (by simp [isProto]), filter_others isLine]

/-- Behind a blank line the line that is put in comes first. -/
theorem unforged_of_blank (found : findHeadEnd head = some headEnd) {first : List UInt8}
    {rest : List (List UInt8)} (lines : headLines head headEnd = first :: rest)
    (blank : isBlank first = true) :
    Unforged head headEnd ↔ ∃ others, rest = forwardedProto :: others ∧
      ∃ line, others.filter isDisguised = [line] ∧ lineValue line = some "https".toList := by
  obtain ⟨out, tail⟩ := forwardedLines_eq found lines
  obtain ⟨isProto, claims, solid, _⟩ := forwardedProto_spec
  have isLine := rest_isLine found lines
  have opens (more : List (List UInt8)) :
      opening (first :: forwardedProto :: more) = [first, forwardedProto] := by
    simp [opening, blank, solid]
  have heads (more : List (List UInt8)) : headers (first :: forwardedProto :: more) = more := by
    simp [headers, blank, solid]
  have dropped (others : List (List UInt8)) : (forwardedProto :: others).filter (!claimsProto ·) =
      others.filter (!claimsProto ·) :=
    List.filter_cons_of_neg (by simp [claims])
  constructor
  · rintro ⟨_, request, ⟨line, one, https⟩, _⟩
    obtain ⟨others, rfl⟩ : ∃ others, rest = forwardedProto :: others := by
      rw [out, lines, opens] at request
      have second : [forwardedProto] = opening rest := by
        have cut : opening (first :: rest) = first :: opening rest := by simp [opening, blank]
        exact (List.cons.inj (request.trans cut)).2
      cases rest with
      | nil => cases second
      | cons next others =>
          cases white : isBlank next with
          | true =>
              have cut : opening (next :: others) = next :: opening others := by simp [opening, white]
              obtain rfl := (List.cons.inj (second.trans cut)).1
              rw [solid] at white
              cases white
          | false =>
              have cut : opening (next :: others) = [next] := by simp [opening, white]
              exact ⟨others, by rw [(List.cons.inj (second.trans cut)).1]⟩
    refine ⟨others, rfl, line, ?_, https⟩
    rw [out, heads, dropped, filter_kept] at one
    exact one
  · rintro ⟨others, rfl, line, one, https⟩
    refine ⟨tail, ?_, ⟨line, ?_, https⟩, ?_⟩
    · rw [out, lines, opens, opens]
    · rw [out, heads, dropped, filter_kept, one]
    · rw [out, lines, heads, heads, dropped,
        filter_others fun line member => isLine line (List.mem_cons_of_mem _ member)]

/--
The scheme is not forged if and only if the head is plain.  For a head that is
forwarded over TLS `host_of` found a host in it too.
-/
theorem unforged_iff (found : findHeadEnd head = some headEnd) :
    Unforged head headEnd ↔ Plain head headEnd := by
  obtain ⟨first, rest, lines⟩ := List.exists_cons_of_ne_nil (headLines_spec found).2.2
  rw [Plain, lines]
  by_cases blank : isBlank first = true
  · exact (unforged_of_blank found lines blank).trans (iff_of_eq (if_pos blank).symm)
  · have solid := (Bool.not_eq_true _).mp blank
    exact (unforged_of_not_blank found lines solid).trans (iff_of_eq (if_neg blank).symm)

end

/-- A client that claims http, with a blank before the colon. -/
def spacedClaim : List UInt8 :=
  bytesOf "GET / HTTP/1.1\r\nHost: app.test\r\nX-Forwarded-Proto : http\r\n\r\n"

/-- The claim is forwarded beside the line that says https. -/
theorem spacedClaim_forged :
    findHeadEnd spacedClaim = some 60 ∧ hostOf (spacedClaim.take 60) = some "app.test" ∧
      ¬ Unforged spacedClaim 60 := by
  refine ⟨by decide +kernel, by decide +kernel, ?_⟩
  rintro ⟨_, _, ⟨line, one, _⟩, _⟩
  have two : ((headers (forwardedLines spacedClaim 60)).filter isForwardedProto).length = 2 := by
    decide +kernel
  rw [one] at two
  cases two

/-- A claim as it is mostly written. -/
def usualClaim : List UInt8 :=
  bytesOf "GET / HTTP/1.1\r\nHost: app.test\r\nX-Forwarded-Proto: http\r\n\r\n"

theorem unforged_iff_usualClaim : Unforged usualClaim 59 := by
  refine (unforged_iff (by decide +kernel)).mpr ?_
  have lines : headLines usualClaim 59 =
      [bytesOf "GET / HTTP/1.1\r\n", bytesOf "Host: app.test\r\n",
        bytesOf "X-Forwarded-Proto: http\r\n", bytesOf "\r\n"] := by decide +kernel
  have solid : isBlank (bytesOf "GET / HTTP/1.1\r\n") = false := by decide +kernel
  have plain : ([bytesOf "Host: app.test\r\n", bytesOf "X-Forwarded-Proto: http\r\n",
      bytesOf "\r\n"].all fun line => isDisguised line = false) = true := by decide +kernel
  rw [Plain, lines]
  simp only [solid, Bool.false_eq_true, if_false]
  exact fun line member => of_decide_eq_true (List.all_eq_true.mp plain line member)

end StormLb.Router
