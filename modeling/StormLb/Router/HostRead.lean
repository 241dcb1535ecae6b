import StormLb.Net.Rfc9112
import StormLb.Router.Forwarded

/-!
# The line the host is read from

`host_of` by the lines of a head: it takes the first line whose trimmed name is
`host`, unless a line before it is blank or no text.
-/

namespace StormLb.Router

open StormLb.Net.Rfc9112 StormLb.Text

/-! ## Names and values -/

/-- The reading of the host takes the line. -/
def namesHost (line : List UInt8) : Bool :=
  (lineName line).any fun name => eqIgnoreAsciiCase name "host".toList

/-- A field of this name by the grammar has it for the reading of the host. -/
theorem namesHost_of_isField {line : List UInt8} (field : isField (bytesOf "host") line = true) :
    namesHost line = true := by
  obtain ⟨before, after, rfl, absent, lowered⟩ := isField_iff.mp field
  have plain : ((bytesOf "host").all fun b => b < 128 && !isWhitespace (asciiChar b)) = true := by
    decide +kernel
  obtain ⟨name, named, lower⟩ := lineName_of_lowered (List.all_eq_true.mp plain)
    (by simp : 58 ∈ before ++ 58 :: after) (by rw [takeWhile_ne_append_cons absent]; exact lowered)
  have same : (bytesOf "host").map asciiChar = toAsciiLowercase "host".toList := by decide +kernel
  rw [namesHost, named, Option.any_some, eqIgnoreAsciiCase, lower, same]
  exact decide_eq_true rfl

/-! ## One line -/

section

variable {text name value : List Char}

theorem colon_mem_utf8 : 58 ∈ utf8 text ↔ ':' ∈ text :=
  mem_utf8_iff (by decide) (by decide)

theorem utf8_append_colon : utf8 (name ++ ':' :: value) = utf8 name ++ 58 :: utf8 value := by
  rw [utf8_append, utf8_cons]
  rfl

theorem lineName_utf8_append (absent : ':' ∉ name) :
    lineName (utf8 (name ++ ':' :: value)) = some (trim name) := by
  rw [lineName, utf8_append_colon, if_pos (by simp),
    takeWhile_ne_append_cons fun member => absent (colon_mem_utf8.mp member), fromUtf8_utf8]
  rfl

theorem lineValue_utf8_append (absent : ':' ∉ name) :
    lineValue (utf8 (name ++ ':' :: value)) = some (trim value) := by
  rw [lineValue, utf8_append_colon,
    dropWhile_ne_append_cons fun member => absent (colon_mem_utf8.mp member), List.drop_one,
    List.tail_cons, fromUtf8_utf8]
  rfl

theorem lineName_utf8_of_not_mem (absent : ':' ∉ text) : lineName (utf8 text) = none :=
  if_neg fun member => absent (colon_mem_utf8.mp member)

theorem trim_append_white {white : List Char} (all : ∀ c ∈ white, isWhitespace c = true) :
    trim (text ++ white) = trim text :=
  stripped_surrounded (fun c (member : c ∈ []) => absurd member List.not_mem_nil) all

theorem trim_append_newline (text : List Char) : trim (text ++ ['\n']) = trim text :=
  trim_append_white (List.forall_mem_singleton.mpr (by decide))

theorem trim_dropWhile : trim (text.dropWhile isWhitespace) = trim text :=
  stripped_dropWhile

theorem trim_rdropWhile : trim (text.rdropWhile isWhitespace) = trim text :=
  stripped_rdropWhile

end

/-- One turn of the scan, by the line with its newline. -/
theorem hostIn_cons {line : List UInt8} (isLine : IsLine newline line) (rest : List (List UInt8)) :
    hostIn (line.dropLast :: rest) =
      if fromUtf8 line = none ∨ isBlank line = true then none
      else if namesHost line = true then
        (lineValue line).map fun value => stripPort (toAsciiLowercase value)
      else hostIn rest := by
  obtain ⟨body, _, rfl⟩ := isLine
  have decoded : fromUtf8 (body ++ [newline]) = (fromUtf8 body).map (· ++ ['\n']) := by
    have none_left : fromUtf8 [] = some [] := by decide
    rw [fromUtf8_append_cons (by decide), none_left]
    cases fromUtf8 body with
    | none => rfl
    | some text => rfl
  rw [List.dropLast_concat, hostIn, isBlank, decoded]
  cases whole : fromUtf8 body with
  | none => simp
  | some text =>
      have bytes : body ++ [newline] = utf8 (text ++ ['\n']) := by
        rw [utf8_append, fromUtf8_eq_some_iff.mp whole]
        rfl
      simp only [Option.map_some, Option.any_some, trim_append_newline, reduceCtorEq, false_or,
        decide_eq_true_eq]
      refine if_congr Iff.rfl rfl ?_
      rw [namesHost, bytes]
      by_cases colon : ':' ∈ text
      · obtain ⟨name, value, rfl, absent⟩ := List.eq_append_cons_of_mem colon
        have early : ':' ∉ name.dropWhile isWhitespace :=
          fun member => absent ((List.dropWhile_sublist _).subset member)
        rw [trim_append_cons (by decide), splitOnce_append_cons early, List.append_assoc,
          List.cons_append, lineName_utf8_append absent, lineValue_utf8_append absent]
        simp only [trim_dropWhile, trim_rdropWhile, trim_append_newline, Option.any_some,
          Option.map_some]
      · have inner : ':' ∉ trim text := by
          obtain ⟨before, after, split, _⟩ := exists_around_stripped isWhitespace text
          intro member
          rw [split] at colon
          exact colon (List.mem_append_left _ (List.mem_append_right _ member))
        have absent : ':' ∉ text ++ ['\n'] := by simpa using colon
        rw [splitOnce_eq_none inner, lineName_utf8_of_not_mem absent]
        rfl

/-! ## The line that is taken -/

/-- The line the host is read from, behind lines that are passed over. -/
structure TakenFrom (host : List Char) (before : List (List UInt8)) (line : List UInt8) :
    Prop where
  passed : ∀ other ∈ before, namesHost other = false ∧ isBlank other = false
  text : fromUtf8 line ≠ none
  named : namesHost line = true
  value : ∃ value, lineValue line = some value ∧ host = stripPort (toAsciiLowercase value)

theorem exists_takenFrom {lines : List (List UInt8)} {host : List Char}
    (isLine : ∀ line ∈ lines, IsLine newline line)
    (found : hostIn (lines.map List.dropLast ++ [[]]) = some host) :
    ∃ before line after, lines = before ++ line :: after ∧ TakenFrom host before line := by
  induction lines with
  | nil => cases found
  | cons line lines ih =>
      obtain ⟨here, isLine⟩ := List.forall_mem_cons.mp isLine
      rw [List.map_cons, List.cons_append, hostIn_cons here] at found
      split at found
      · cases found
      · rename_i solid
        obtain ⟨text, notBlank⟩ := not_or.mp solid
        split at found
        · rename_i named
          obtain ⟨value, given, rfl⟩ := Option.map_eq_some_iff.mp found
          refine ⟨[], line, lines, rfl, ?_, text, named, value, given, rfl⟩
          exact fun other member => absurd member List.not_mem_nil
        · rename_i other
          obtain ⟨before, taken, after, rfl, passed, text, named, value⟩ := ih isLine found
          refine ⟨line :: before, taken, after, rfl, ?_, text, named, value⟩
          exact List.forall_mem_cons.mpr
            ⟨⟨(Bool.not_eq_true _).mp other, (Bool.not_eq_true _).mp notBlank⟩, passed⟩

theorem splitOn_flatten {lines : List (List UInt8)} (isLine : ∀ line ∈ lines, IsLine newline line) :
    lines.flatten.splitOn newline = lines.map List.dropLast ++ [[]] := by
  induction lines with
  | nil => rfl
  | cons line lines ih =>
      obtain ⟨⟨body, absent, rfl⟩, later⟩ := List.forall_mem_cons.mp isLine
      rw [List.flatten_cons, List.append_assoc, List.singleton_append,
        List.splitOn_append_cons_self_of_not_mem absent, ih later, List.map_cons,
        List.dropLast_concat]
      rfl

/-- Where the host of a head comes from. -/
theorem takenFrom_of_hostOf {head : List UInt8} {headEnd : Nat} {host : String}
    (found : findHeadEnd head = some headEnd) (named : hostOf (head.take headEnd) = some host) :
    ∃ first before line after, headLines head headEnd = first :: (before ++ line :: after) ∧
      TakenFrom host.toList before line := by
  obtain ⟨whole, isLine, nonempty⟩ := headLines_spec found
  obtain ⟨first, rest, lines⟩ := List.exists_cons_of_ne_nil nonempty
  rw [lines] at whole isLine
  rw [hostOf, ← whole, splitOn_flatten isLine, List.map_cons, List.cons_append, List.drop_one,
    List.tail_cons] at named
  obtain ⟨text, read, rfl⟩ := Option.map_eq_some_iff.mp named
  obtain ⟨before, line, after, rfl, taken⟩ :=
    exists_takenFrom (List.forall_mem_cons.mp isLine).2 read
  exact ⟨first, before, line, after, lines, by simpa using taken⟩

/-! ## The lines that go out -/

/-- The lines of the head that is forwarded, by those that came in. -/
def outgoing (tls : Bool) : List (List UInt8) → List (List UInt8)
  | [] => []
  | first :: rest =>
      first :: if tls then forwardedProto :: rest.filter (!claimsProto ·) else rest

/-- The head that is forwarded. -/
def forwardedHead (tls : Bool) (head : List UInt8) (headEnd : Nat) : List UInt8 :=
  (outgoing tls (headLines head headEnd)).flatten

/-- A line that claims a scheme does not name the host. -/
theorem claimsProto_of_namesHost {line : List UInt8} (isLine : IsLine newline line)
    (named : namesHost line = true) : claimsProto line = false := by
  by_contra claims
  have proto := isForwardedProto_of_claims isLine ((Bool.not_eq_false _).mp claims)
  rw [isForwardedProto, Option.any_eq_true] at proto
  rw [namesHost, Option.any_eq_true] at named
  obtain ⟨name, first, lower⟩ := proto
  obtain ⟨other, second, same⟩ := named
  obtain rfl := Option.some.inj (first.symm.trans second)
  have lower : toAsciiLowercase name = _ := of_decide_eq_true lower
  have same : toAsciiLowercase name = _ := of_decide_eq_true same
  exact absurd (lower.symm.trans same) (by decide)

/-- The line that is taken goes out, behind lines that are passed over. -/
theorem TakenFrom.outgoing {host : List Char} {first line : List UInt8}
    {before after : List (List UInt8)} (taken : TakenFrom host before line)
    (isLine : ∀ other ∈ first :: (before ++ line :: after), IsLine newline other) (tls : Bool) :
    ∃ sooner later, outgoing tls (first :: (before ++ line :: after)) =
        first :: (sooner ++ line :: later) ∧ TakenFrom host sooner line ∧
      ∀ other ∈ first :: (sooner ++ line :: later), IsLine newline other := by
  cases tls with
  | false => exact ⟨before, after, rfl, taken, isLine⟩
  | true =>
      have kept : claimsProto line = false :=
        claimsProto_of_namesHost (isLine line (by simp)) taken.named
      refine ⟨forwardedProto :: before.filter (!claimsProto ·), after.filter (!claimsProto ·), ?_,
        ⟨?_, taken.text, taken.named, taken.value⟩, ?_⟩
      · simp [Router.outgoing, kept]
      · have other : namesHost forwardedProto = false ∧ isBlank forwardedProto = false := by
          decide +kernel
        exact List.forall_mem_cons.mpr
          ⟨other, fun line member => taken.passed line (List.mem_of_mem_filter member)⟩
      · intro other member
        simp only [List.cons_append, List.mem_cons, List.mem_append, List.mem_filter] at member
        rcases member with rfl | rfl | ⟨inside, _⟩ | rfl | ⟨inside, _⟩
        · exact isLine _ List.mem_cons_self
        · exact forwardedProto_isLine
        · exact isLine _ (by simp [inside])
        · exact isLine _ (by simp)
        · exact isLine _ (by simp [inside])

/-- The head that is forwarded, and what followed it. -/
theorem passed_eq {head : List UInt8} {headEnd : Nat} (found : findHeadEnd head = some headEnd)
    (tls : Bool) : (if tls then forwardedHttps head headEnd else head) =
      forwardedHead tls head headEnd ++ head.drop headEnd := by
  obtain ⟨whole, _, nonempty⟩ := headLines_spec found
  obtain ⟨first, rest, lines⟩ := List.exists_cons_of_ne_nil nonempty
  cases tls with
  | false =>
      rw [lines] at whole
      simp only [Bool.false_eq_true, if_false, forwardedHead, lines, outgoing, whole,
        List.take_append_drop]
  | true =>
      rw [forwardedHead, lines]
      rw [headLines] at lines
      simp only [if_true, forwardedHttps, lines, outgoing, List.head?_cons, Option.getD_some,
        List.tail_cons, List.flatten_cons, List.append_assoc]

/-! ## Hosts as bytes -/

/-- The port is the same in characters and in bytes. -/
theorem utf8_stripPort (text : List Char) : utf8 (stripPort text) = withoutPort (utf8 text) := by
  by_cases colon : ':' ∈ text
  · obtain ⟨name, port, rfl, absent⟩ := exists_last_split colon
    rw [stripPort, rsplitOnce_append_cons absent]
    dsimp only
    split
    · rename_i digits
      rw [utf8_append_colon, withoutPort_port ((utf8_digits_iff port).mpr digits)]
    · rename_i letters
      rcases withoutPort_cases (utf8 (name ++ ':' :: port)) with ⟨digits, split, ported⟩ | ⟨same, _⟩
      · rw [utf8_append_colon] at split
        have clean : 58 ∉ digits := fun member => absurd (ported 58 member) (by decide)
        have unported : 58 ∉ utf8 port := fun member => absent (colon_mem_utf8.mp member)
        have rest := eq_of_last_split split unported clean
        exact absurd ((utf8_digits_iff port).mp (rest ▸ ported)) letters
      · rw [same]
  · have absent : 58 ∉ utf8 text := fun member => colon (colon_mem_utf8.mp member)
    have whole : withoutPort (utf8 text ++ []) = utf8 text ++ withoutPort [] :=
      withoutPort_append absent
    rw [stripPort, rsplitOnce_eq_none colon]
    simpa [withoutPort] using whole.symm

/-- The host that the router takes, as bytes. -/
theorem bytesOf_host (value : List Char) :
    bytesOf (String.ofList (stripPort (toAsciiLowercase value))) =
      withoutPort ((utf8 value).map asciiLower) := by
  rw [bytesOf, String.toList_ofList, utf8_stripPort, utf8_toAsciiLowercase]

/-! ## White space around the value -/

/-- A byte of a character that is no white space is no space or tab. -/
theorem isOws_of_solid {c : Char} (solid : isWhitespace c = false) {b : UInt8}
    (member : b ∈ String.utf8EncodeChar c) : isOws b = false := by
  by_contra white
  have white : b = 32 ∨ b = 9 := of_decide_eq_true ((Bool.not_eq_false _).mp white)
  have ascii : b < 128 := by
    rcases white with rfl | rfl
    · decide
    · decide
  rw [eq_asciiChar_of_mem member ascii] at solid
  rcases white with rfl | rfl
  · exact absurd solid (by decide)
  · exact absurd solid (by decide)

/-- No byte of white space is part of a port. -/
theorem not_port_of_white {text : List Char} (white : ∀ c ∈ text, isWhitespace c = true) {b : UInt8}
    (member : b ∈ utf8 text) : isAsciiDigit b = false ∧ b ≠ 58 := by
  obtain ⟨c, inText, inside⟩ := List.mem_flatMap.mp member
  by_cases ascii : b < 128
  · have here := white c inText
    rw [eq_asciiChar_of_mem inside ascii] at here
    exact of_codes (P := fun b => isWhitespace (asciiChar b) = true →
      isAsciiDigit b = false ∧ b ≠ 58) (by decide +kernel) ascii here
  · constructor
    · refine decide_eq_false fun digit => ascii (UInt8.lt_of_le_of_lt digit.2 (by decide))
    · rintro rfl
      exact ascii (by decide)

theorem bounded_utf8 {text : List Char} (bounded : Bounded isWhitespace text) :
    Bounded isOws (utf8 text) := by
  obtain ⟨⟨c, rest, first, start⟩, init, d, last, end_⟩ := bounded
  constructor
  · obtain ⟨b, more, encoded⟩ := List.exists_cons_of_ne_nil (String.utf8EncodeChar_ne_nil (c := c))
    refine ⟨b, more ++ utf8 rest, ?_, isOws_of_solid start (encoded ▸ List.mem_cons_self)⟩
    rw [first, utf8_cons, encoded]
    rfl
  · have encoded := List.dropLast_append_getLast (String.utf8EncodeChar_ne_nil (c := d))
    refine ⟨utf8 init ++ (String.utf8EncodeChar d).dropLast, _, ?_,
      isOws_of_solid end_ (List.getLast_mem (String.utf8EncodeChar_ne_nil (c := d)))⟩
    rw [List.append_assoc, encoded, last, utf8_append, utf8_cons, utf8_nil, List.append_nil]

/-- The value by the grammar is the one that is taken, between white space of other kinds. -/
theorem exists_around_trim (text : List Char) : ∃ before after,
    stripped isOws (utf8 text) = before ++ utf8 (trim text) ++ after ∧ 58 ∉ before ∧
      ∀ b ∈ after, isAsciiDigit b = false ∧ b ≠ 58 := by
  rcases stripped_bounded isWhitespace text with all | bounded
  · obtain ⟨front, back, whole, _⟩ := exists_around_stripped isOws (utf8 text)
    have none : trim text = [] := stripped_eq_nil all
    refine ⟨stripped isOws (utf8 text), [], by simp [none], fun member => ?_, by simp⟩
    have inside : 58 ∈ utf8 text := by
      rw [whole]
      simp [member]
    exact (not_port_of_white all inside).2 rfl
  · obtain ⟨front, back, whole, white, blank⟩ := exists_around_stripped isWhitespace text
    have cut : utf8 text = utf8 front ++ utf8 (trim text) ++ utf8 back := by
      conv_lhs => rw [whole]
      rw [utf8_append, utf8_append]
      rfl
    refine ⟨(utf8 front).dropWhile isOws, (utf8 back).rdropWhile isOws, ?_, fun member => ?_,
      fun b member => ?_⟩
    · rw [cut]
      exact stripped_between (bounded_utf8 bounded)
    · exact (not_port_of_white white ((List.dropWhile_sublist _).subset member)).2 rfl
    · exact not_port_of_white blank ((List.rdropWhile_prefix isOws (utf8 back)).subset member)

end StormLb.Router
