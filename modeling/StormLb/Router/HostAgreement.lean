import StormLb.Router.HeadSent

/-!
# One head, two readings of its host

The router demultiplexes by the line that `host_of` takes, and forwards the head
to a backend that reads it by the grammar.
-/

namespace StormLb.Router

open StormLb.Effects StormLb.Net.Rfc9112 StormLb.Text

/-! ## Agreement -/

/-- By the grammar the head has one Host field, which names this host. -/
def Agrees (head : List UInt8) (host : String) : Prop :=
  ∃ value, fieldValues (bytesOf "host") (fieldLines head) = [value] ∧
    withoutPort (value.map asciiLower) = bytesOf host

/-- What stands before the line the host is read from, the line, and what follows it. -/
def hostLine : List (List UInt8) → Option (List UInt8 × List UInt8 × List UInt8)
  | [] => none
  | first :: rest =>
      match rest.dropWhile (!namesHost ·) with
      | [] => none
      | line :: after =>
          some ((first :: rest.takeWhile (!namesHost ·)).flatten, line, after.flatten)

/-- By the grammar a Host field starts with the line. -/
def startsField (before line : List UInt8) : Bool :=
  [13, 10] <:+ before ∧ isField (bytesOf "host") line

/-- A line without the CRLF at its end. -/
def content (line : List UInt8) : List UInt8 :=
  line.dropLast.dropLast

/-- The lines that follow in the head. -/
def further (after : List UInt8) : List (List UInt8) :=
  (crlfLines after).takeWhile (· ≠ [])

/-- The lines that continue the line before. -/
def continuations (after : List UInt8) : List (List UInt8) :=
  (further after).takeWhile continues

/--
The Host field that starts with the line is the head's only one: the line ends in
CRLF, and the white space around the value is spaces and tabs that no content
follows.  Without a value it may be continued by a port.
-/
structure Alone (line after : List UInt8) : Prop where
  ended : [13, 10] <:+ line
  one : ∀ other ∈ further after, isField (bytesOf "host") other = false
  value : (∀ other ∈ continuations after, isBare other = true) ∧
      lineValue line = fromUtf8 (stripped isOws (afterColon (content line))) ∨
    isBare (afterColon (content line)) = true ∧
      withoutPort (fieldValue (content line) (continuations after)) = []

/-- The head has one Host field, on another line, and the two lines name the same host. -/
def Echoed (before line after : List UInt8) : Prop :=
  ∃ field folds text,
    OneField (bytesOf "host") (fieldLines (before ++ line ++ after)) field folds ∧
      lineValue line = some text ∧
      withoutPort ((fieldValue field folds).map asciiLower) = withoutPort ((utf8 text).map asciiLower)

/--
Where a Host field starts with the line the host is read from, it is the only
one in what goes out; elsewhere the line echoes the only one.
-/
def Clear (tls : Bool) (head : List UInt8) (headEnd : Nat) : Prop :=
  ∃ before line after,
    hostLine (outgoing tls (headLines head headEnd)) = some (before, line, after) ∧
      if startsField before line then Alone line after else Echoed before line after

/-! ## The value of the line -/

section

variable {line : List UInt8} {folds : List (List UInt8)} {value : List Char}

theorem lineValue_append {ending : List UInt8} (colon : 58 ∈ line)
    (ends : ending = [13, 10] ∨ ending = [10]) :
    lineValue (line ++ ending) = (fromUtf8 (afterColon line)).map trim := by
  obtain ⟨name, rest, rfl, absent⟩ := List.eq_append_cons_of_mem colon
  rw [afterColon_append absent, lineValue, List.append_assoc, List.cons_append,
    dropWhile_ne_append_cons absent, List.drop_one, List.tail_cons]
  rcases ends with rfl | rfl
  · have decoded : fromUtf8 [10] = some ['\n'] := by decide
    have white : asciiChar 13 = '\r' := by decide
    rw [fromUtf8_append_cons (by decide), decoded, white]
    cases fromUtf8 rest with
    | none => rfl
    | some text =>
        have all : ∀ c ∈ ['\r', '\n'], isWhitespace c = true :=
          List.forall_mem_cons.mpr ⟨by decide, List.forall_mem_singleton.mpr (by decide)⟩
        exact congrArg some (trim_append_white all)
  · have decoded : fromUtf8 [] = some [] := by decide
    have white : asciiChar 10 = '\n' := by decide
    rw [fromUtf8_append_cons (by decide), decoded, white]
    cases fromUtf8 rest with
    | none => rfl
    | some text => exact congrArg some (trim_append_newline text)

/-- The value by the grammar, around the one that is taken. -/
theorem exists_around_value {ending : List UInt8} (colon : 58 ∈ line)
    (ends : ending = [13, 10] ∨ ending = [10]) (read : lineValue (line ++ ending) = some value) :
    ∃ before after, stripped isOws (afterColon line) = before ++ utf8 value ++ after ∧
      58 ∉ before ∧ ∀ b ∈ after, isAsciiDigit b = false ∧ b ≠ 58 := by
  rw [lineValue_append colon ends] at read
  obtain ⟨text, decoded, rfl⟩ := Option.map_eq_some_iff.mp read
  rw [← fromUtf8_eq_some_iff.mp decoded]
  exact exists_around_trim text

theorem isBare_iff : isBare line = true ↔ stripped isOws line = [] := by
  rw [isBare, List.all_eq_true]
  constructor
  · exact stripped_eq_nil
  · intro none
    rcases stripped_bounded isOws line with all | ⟨⟨b, rest, first, _⟩, _⟩
    · exact all
    · rw [none] at first
      cases first

theorem map_lower_eq_nil_iff {host : List UInt8} :
    withoutPort (host.map asciiLower) = [] ↔ withoutPort host = [] := by
  rw [withoutPort_map_lower, List.map_eq_nil_iff]

/-- A value that is longer than the one that is taken names another host. -/
theorem other_host {before after : List UInt8} {b : UInt8}
    (solid : isAsciiDigit (asciiLower b) = false ∧ asciiLower b ≠ 58)
    (long : (utf8 value).length ≤ before.length) :
    withoutPort ((before ++ b :: after).map asciiLower) ≠
      withoutPort ((utf8 value).map asciiLower) := by
  intro same
  have least : (before.map asciiLower).length <
      (withoutPort (before.map asciiLower ++ asciiLower b :: after.map asciiLower)).length :=
    withoutPort_keeps solid.1 solid.2
  have most := length_withoutPort_le ((utf8 value).map asciiLower)
  rw [← List.map_cons, ← List.map_append, same, List.length_map] at least
  rw [List.length_map] at most
  omega

/-- When the field on a line that a CRLF ends names the host that is taken. -/
theorem same_host_iff (colon : 58 ∈ line) (read : lineValue (line ++ [13, 10]) = some value) :
    withoutPort ((fieldValue line folds).map asciiLower) =
        withoutPort ((utf8 value).map asciiLower) ↔
      (∀ other ∈ folds, isBare other = true) ∧
          lineValue (line ++ [13, 10]) = fromUtf8 (stripped isOws (afterColon line)) ∨
        isBare (afterColon line) = true ∧ withoutPort (fieldValue line folds) = [] := by
  obtain ⟨before, after, around, absent, other⟩ := exists_around_value colon (.inl rfl) read
  have lengths := congrArg List.length around
  rw [List.length_append, List.length_append] at lengths
  by_cases bare : isBare (afterColon line) = true
  · have none := isBare_iff.mp bare
    have taken : utf8 value = [] := by
      rw [none, List.length_nil] at lengths
      exact List.length_eq_zero_iff.mp (by omega)
    have portless : withoutPort (([] : List UInt8).map asciiLower) = [] := by decide
    rw [taken, portless, map_lower_eq_nil_iff]
    constructor
    · exact fun empty => .inr ⟨bare, empty⟩
    · rintro (⟨blank, _⟩ | ⟨_, empty⟩)
      · rw [fieldValue_of_bare blank, none]
        decide
      · exact empty
  · have nonempty : stripped isOws (afterColon line) ≠ [] := fun none => bare (isBare_iff.mpr none)
    by_cases blank : ∀ other ∈ folds, isBare other = true
    · have plain : ∀ b ∈ after.map asciiLower, isAsciiDigit b = false ∧ b ≠ 58 := by
        intro b member
        obtain ⟨d, inside, rfl⟩ := List.mem_map.mp member
        obtain ⟨digit, colon⟩ := other d inside
        exact ⟨by rwa [isAsciiDigit_asciiLower], fun same => colon (eq_colon_of_lower same)⟩
      have exact_ : lineValue (line ++ [13, 10]) = fromUtf8 (stripped isOws (afterColon line)) ↔
          before = [] ∧ after = [] := by
        rw [read, eq_comm, fromUtf8_eq_some_iff, around]
        constructor
        · intro same
          rw [around, ← same] at lengths
          exact ⟨List.length_eq_zero_iff.mp (by omega), List.length_eq_zero_iff.mp (by omega)⟩
        · rintro ⟨rfl, rfl⟩
          rw [List.nil_append, List.append_nil]
      rw [fieldValue_of_bare blank, around, List.map_append, List.map_append,
        withoutPort_surrounded (colon_not_mem_lower absent) plain, List.map_eq_nil_iff,
        List.map_eq_nil_iff, ← around, ← exact_]
      constructor
      · exact fun same => .inl ⟨blank, same⟩
      · rintro (⟨_, same⟩ | ⟨empty, _⟩)
        · exact same
        · exact absurd empty bare
    · have content : ∃ other ∈ folds, isBare other = false := by simpa using blank
      obtain ⟨last, folded⟩ := fieldValue_of_content content nonempty
      rw [folded]
      refine iff_of_false (other_host (by decide) (by omega)) ?_
      rintro (⟨all, _⟩ | ⟨empty, _⟩)
      · exact blank all
      · exact bare empty

/-- The field on a line that a newline alone ends names another host. -/
theorem other_host_of_open {rest : List UInt8} (colon : 58 ∈ line)
    (read : lineValue (line ++ [10]) = some value) :
    withoutPort ((fieldValue (line ++ 10 :: rest) folds).map asciiLower) ≠
      withoutPort ((utf8 value).map asciiLower) := by
  obtain ⟨before, after, around, _⟩ := exists_around_value colon (.inr rfl) read
  obtain ⟨name, field, rfl, absent⟩ := List.eq_append_cons_of_mem colon
  rw [afterColon_append absent] at around
  have split : afterColon ((name ++ 58 :: field) ++ 10 :: rest) = field ++ 10 :: rest := by
    rw [List.append_assoc, List.cons_append, afterColon_append absent]
  obtain ⟨last, solid⟩ : ∃ last, fieldValue ((name ++ 58 :: field) ++ 10 :: rest) folds =
      field.dropWhile isOws ++ 10 :: last :=
    fieldValue_of_solid (by decide) split
  rw [solid]
  refine other_host (by decide) ?_
  have lengths := congrArg List.length around
  have cut := (List.rdropWhile_prefix isOws (field.dropWhile isOws)).length_le
  rw [List.length_append, List.length_append, stripped] at lengths
  omega

end

/-! ## The fields of the head -/

section

variable {host : List Char} {first line : List UInt8} {sooner later : List (List UInt8)}

theorem hostLine_eq (taken : TakenFrom host sooner line) :
    hostLine (first :: (sooner ++ line :: later)) =
      some ((first :: sooner).flatten, line, later.flatten) := by
  have passed : ∀ other ∈ sooner, (!namesHost other) = true := by
    intro other member
    rw [(taken.passed other member).1]
    rfl
  have named : ¬ (!namesHost line) = true := by simp [taken.named]
  have stopped : (line :: later).dropWhile (!namesHost ·) = line :: later :=
    List.dropWhile_cons_of_neg named
  have none : (line :: later).takeWhile (!namesHost ·) = [] := List.takeWhile_cons_of_neg named
  rw [hostLine, List.dropWhile_append_of_pos passed, List.takeWhile_append_of_pos passed, stopped,
    none, List.append_nil]

theorem eq_crlf_of_start {other : List UInt8} (isLine : IsLine newline other)
    (starts : other <+: [13, 10]) : other = [13, 10] := by
  obtain ⟨body, _, rfl⟩ := isLine
  obtain ⟨more, whole⟩ := starts
  cases body with
  | nil => cases whole
  | cons b body =>
      obtain ⟨rfl, rest⟩ := List.cons.inj whole
      cases body with
      | nil => rfl
      | cons c body =>
          have lengths := congrArg List.length rest
          simp at lengths

/-- Before the line that is taken the grammar finds no Host field, and no end of the head. -/
theorem fieldValues_of_taken (taken : TakenFrom host sooner line)
    (isLine : ∀ other ∈ first :: sooner, IsLine newline other)
    (ended : [13, 10] <:+ (first :: sooner).flatten) (rest : List UInt8) :
    fieldValues (bytesOf "host") (fieldLines ((first :: sooner).flatten ++ rest)) =
      fieldValues (bytesOf "host") ((crlfLines rest).takeWhile (· ≠ [])) := by
  obtain ⟨isFirst, isLine⟩ := List.forall_mem_cons.mp isLine
  have start (piece : List UInt8) (member : piece ∈ (crlfLines (first :: sooner).flatten).tail) :
      piece ≠ [] ∧ isField (bytesOf "host") piece = false := by
    obtain ⟨other, inside, starts⟩ := exists_start_of_tail isFirst isLine member
    obtain ⟨notHost, notBlank⟩ := taken.passed other inside
    constructor
    · rintro rfl
      rw [eq_crlf_of_start (isLine other inside) starts] at notBlank
      revert notBlank
      decide
    · by_contra field
      have oneLine : 10 ∉ bytesOf "host" := by decide +kernel
      have named := namesHost_of_isField
        (isField_of_start oneLine (isLine other inside) starts ((Bool.not_eq_false _).mp field))
      rw [notHost] at named
      cases named
  obtain ⟨body, whole⟩ := ended
  obtain ⟨split, nonempty⟩ := crlfLines_append body rest
  have joined : (first :: sooner).flatten ++ rest = body ++ 13 :: 10 :: rest := by
    rw [← whole, List.append_assoc]
    rfl
  rw [whole] at split nonempty
  rw [fieldLines, joined, split, List.tail_append_of_ne_nil nonempty,
    List.takeWhile_append_of_pos fun piece member => decide_eq_true (start piece member).1,
    fieldValues_append fun piece member => (start piece member).2]

theorem isField_of_starts {before ending : List UInt8} (other : 58 ∉ ending)
    (starts : startsField before (line ++ ending) = true) :
    isField (bytesOf "host") line = true := by
  rw [← isField_append other]
  exact (of_decide_eq_true starts).2

/-- By the grammar one field starts here, and it names the host that is taken. -/
def OneNamed (rest : List UInt8) (value : List Char) : Prop :=
  ∃ field, fieldValues (bytesOf "host") ((crlfLines rest).takeWhile (· ≠ [])) = [field] ∧
    withoutPort (field.map asciiLower) = withoutPort ((utf8 value).map asciiLower)

theorem oneNamed_iff_of_ended {before after : List UInt8} {value : List Char} (absent : 10 ∉ line)
    (starts : startsField before (line ++ [13, 10]) = true)
    (read : lineValue (line ++ [13, 10]) = some value) :
    OneNamed (line ++ [13, 10] ++ after) value ↔ Alone (line ++ [13, 10]) after := by
  have field := isField_of_starts (by decide) starts
  have colon : 58 ∈ line := (of_decide_eq_true field).1
  have cut : content (line ++ [13, 10]) = line := by
    rw [content, List.append_cons, List.dropLast_concat, List.dropLast_concat]
  have kept (more : List (List UInt8)) :
      (line :: more).takeWhile (· ≠ []) = line :: more.takeWhile (· ≠ []) :=
    List.takeWhile_cons_of_pos (decide_eq_true (List.ne_nil_of_mem colon))
  have lines : (crlfLines (line ++ [13, 10] ++ after)).takeWhile (· ≠ []) =
      line :: further after := by
    rw [List.append_assoc, List.cons_append, List.singleton_append, crlfLines_ended absent,
      kept, further]
  rw [OneNamed, lines, fieldValues, if_pos field]
  constructor
  · rintro ⟨value, one, same⟩
    obtain ⟨rfl, none⟩ := List.cons.inj one
    refine ⟨List.suffix_append _ _, fieldValues_eq_nil_iff.mp none, ?_⟩
    rw [cut]
    exact (same_host_iff colon read).mp same
  · rintro ⟨_, one, value⟩
    rw [cut] at value
    refine ⟨_, congrArg _ (fieldValues_eq_nil_iff.mpr one), (same_host_iff colon read).mpr value⟩

theorem not_oneNamed_of_open {before after : List UInt8} {value : List Char} (absent : 10 ∉ line)
    (bare : line.getLast? ≠ some 13) (starts : startsField before (line ++ [10]) = true)
    (read : lineValue (line ++ [10]) = some value) : ¬ OneNamed (line ++ [10] ++ after) value := by
  have field := isField_of_starts (by decide) starts
  have colon : 58 ∈ line := (of_decide_eq_true field).1
  rw [OneNamed, List.append_assoc, List.singleton_append, crlfLines_open absent bare]
  rintro ⟨found, one, same⟩
  cases pieces : crlfLines after with
  | nil =>
      rw [pieces] at one
      cases one
  | cons next more =>
      have longer : line ++ [10] ++ next = line ++ 10 :: next := by simp
      have further : isField (bytesOf "host") (line ++ 10 :: next) = true := by
        obtain ⟨name, rest, rfl, early, named⟩ := isField_iff.mp field
        exact isField_iff.mpr ⟨name, rest ++ 10 :: next, by simp, early, named⟩
      have kept : ((line ++ 10 :: next) :: more).takeWhile (· ≠ []) =
          (line ++ 10 :: next) :: more.takeWhile (· ≠ []) :=
        List.takeWhile_cons_of_pos (decide_eq_true (by simp))
      rw [pieces, prepend, longer, kept, fieldValues, if_pos further] at one
      obtain ⟨rfl, _⟩ := List.cons.inj one
      exact other_host_of_open colon read same

theorem flatten_taken : (first :: (sooner ++ line :: later)).flatten =
    (first :: sooner).flatten ++ line ++ later.flatten := by
  simp

/-- Where a Host field starts with the line, the two readings agree if and only if it is alone. -/
theorem agrees_iff_alone (taken : TakenFrom host sooner line)
    (isLine : ∀ other ∈ first :: (sooner ++ line :: later), IsLine newline other)
    (starts : startsField (first :: sooner).flatten line = true) :
    Agrees (first :: (sooner ++ line :: later)).flatten (String.ofList host) ↔
      Alone line later.flatten := by
  have isFront : ∀ other ∈ first :: sooner, IsLine newline other :=
    fun other member => isLine other (List.mem_append_left (line :: later) member)
  have isTaken : IsLine newline line := isLine line (by simp)
  have ended := (of_decide_eq_true starts).1
  obtain ⟨value, read, rfl⟩ := taken.value
  rw [Agrees, bytesOf_host, flatten_taken, List.append_assoc,
    fieldValues_of_taken taken isFront ended]
  rcases ended_or_open isTaken with ⟨text, absent, rfl⟩ | ⟨text, absent, bare, rfl⟩
  · exact oneNamed_iff_of_ended absent starts read
  · refine iff_of_false (not_oneNamed_of_open absent bare starts read) fun alone => bare ?_
    obtain ⟨front, ends⟩ := alone.ended
    rw [List.append_cons] at ends
    rw [← List.append_cancel_right ends, List.getLast?_concat]

/-- Whatever the line is, the two readings agree if and only if it echoes the only Host field. -/
theorem agrees_iff_echoed (taken : TakenFrom host sooner line) :
    Agrees (first :: (sooner ++ line :: later)).flatten (String.ofList host) ↔
      Echoed (first :: sooner).flatten line later.flatten := by
  obtain ⟨value, read, rfl⟩ := taken.value
  rw [Agrees, bytesOf_host, flatten_taken]
  constructor
  · rintro ⟨_, one, same⟩
    obtain ⟨field, folds, only, rfl⟩ := fieldValues_eq_singleton_iff.mp one
    exact ⟨field, folds, value, only, read, same⟩
  · rintro ⟨field, folds, text, only, given, same⟩
    obtain rfl := Option.some.inj (given.symm.trans read)
    exact ⟨_, fieldValues_eq_singleton_iff.mpr ⟨field, folds, only, rfl⟩, same⟩

end

/-! ## The heads that are forwarded -/

theorem agrees_iff_clear {head : List UInt8} {headEnd : Nat} {host : String}
    (found : findHeadEnd head = some headEnd) (named : hostOf (head.take headEnd) = some host)
    (tls : Bool) : Agrees (forwardedHead tls head headEnd) host ↔ Clear tls head headEnd := by
  obtain ⟨first, before, line, after, lines, taken⟩ := takenFrom_of_hostOf found named
  have isLine := (headLines_spec found).2.1
  rw [lines] at isLine
  obtain ⟨sooner, later, out, still, isOut⟩ := taken.outgoing isLine tls
  have byLine : Agrees (first :: (sooner ++ line :: later)).flatten host ↔
      if startsField (first :: sooner).flatten line then Alone line later.flatten
      else Echoed (first :: sooner).flatten line later.flatten := by
    rw [← String.ofList_toList (s := host)]
    split
    · rename_i starts
      exact agrees_iff_alone still isOut starts
    · exact agrees_iff_echoed still
  rw [forwardedHead, Clear, lines, out, hostLine_eq still, byLine]
  constructor
  · exact fun clear => ⟨_, _, _, rfl, clear⟩
  · rintro ⟨front, taken, back, same, clear⟩
    obtain ⟨rfl, rfl, rfl⟩ := by simpa using Option.some.inj same
    exact clear

/--
In every run, what goes upstream first is the head of a request whose host chose
the backend, and the backend reads that host if and only if the head is clear.
-/
theorem hosts_agree_iff (front : Front) (tls : Bool) (program : Prog (Serving ⊕ Exit))
    (log past : Log) (stream : Stream) (bytes : List UInt8) (failed : Option String)
    (run : Runs (front.turn tls) serveConn program log)
    (written : ⟨.writeAll stream bytes, failed⟩ :: past <:+ log) (upstream : stream ≠ .client)
    (first : ¬ WroteUpstream past) :
    ∃ head headEnd host backend, Sent tls bytes past head headEnd host backend ∧
      (Agrees (forwardedHead tls head headEnd) host ↔ Clear tls head headEnd) := by
  obtain ⟨head, headEnd, host, backend, sent⟩ := sent_of_runs front run written upstream first
  exact ⟨head, headEnd, host, backend, sent,
    agrees_iff_clear sent.routed.complete sent.routed.named tls⟩

/-! ## Two requests -/

def oneRouteBackend : Backend where
  addr := "127.0.0.1:9096"
  tls := none

/-- A client's bytes, and a table with one route. -/
def oneRoute (client : List UInt8) : Scene where
  client
  backend := []
  table host := if host = "app.test" then some oneRouteBackend else none
  certs := 0

def oneRouteFront : Front where
  redirect := none
  nameError _ := none

/-- The head is read, demultiplexed and forwarded. -/
def oneRouteLog (client : List UInt8) : Log :=
  (play (oneRouteFront.turn false) (oneRoute client).answer 5 serveConn []).2

/-- The newest thing in the log is this write. -/
theorem oneRouteLog_written {client : List UInt8}
    (newest : (oneRouteLog client).head?.map Sigma.fst = some (.writeAll .tcp client)) :
    ∃ failed, ⟨.writeAll .tcp client, failed⟩ :: (oneRouteLog client).tail <:+
      oneRouteLog client := by
  obtain ⟨⟨op, failed⟩, first, rfl⟩ := Option.map_eq_some_iff.mp newest
  exact ⟨failed, [], (List.eq_cons_of_mem_head? first).symm⟩

theorem oneRouteLog_runs (client : List UInt8) :
    Runs (oneRouteFront.turn false) serveConn
      (play (oneRouteFront.turn false) (oneRoute client).answer 5 serveConn []).1
      (oneRouteLog client) :=
  Runs.play (oneRoute client).answer 5 .start

theorem not_wroteUpstream {log : Log} (unsent : log.any isUpstream = false) :
    ¬ WroteUpstream log := by
  rintro ⟨event, member, upstream⟩
  exact List.any_eq_false.mp unsent event member upstream

/-- In every run what is forwarded has one Host field, for the host that was looked up. -/
def HostsAgree (front : Front) (tls : Bool) : Prop :=
  ∀ (program : Prog (Serving ⊕ Exit)) (log past : Log) (stream : Stream) (bytes : List UInt8)
    (failed : Option String) (head : List UInt8) (headEnd : Nat) (host : String)
    (backend : Backend),
    Runs (front.turn tls) serveConn program log → ⟨.writeAll stream bytes, failed⟩ :: past <:+ log →
      stream ≠ .client → ¬ WroteUpstream past →
        Sent tls bytes past head headEnd host backend → Agrees (forwardedHead tls head headEnd) host

/-- A line that continues `X-A` and looks like a Host line, before the Host field. -/
def foldedHost : List UInt8 :=
  bytesOf "GET / HTTP/1.1\r\nX-A: 1\r\n Host: app.test\r\nHost: admin.test\r\n\r\n"

/-- A request for the admin's host goes to the app's backend. -/
theorem foldedHost_astray : ¬ HostsAgree oneRouteFront false := by
  intro agree
  have newest : (oneRouteLog foldedHost).head?.map Sigma.fst =
      some (.writeAll .tcp foldedHost) := by decide +kernel
  obtain ⟨failed, written⟩ := oneRouteLog_written newest
  have first : ¬ WroteUpstream (oneRouteLog foldedHost).tail :=
    not_wroteUpstream (by decide +kernel)
  obtain ⟨head, headEnd, host, backend, sent⟩ :=
    sent_of_runs oneRouteFront (oneRouteLog_runs foldedHost) written nofun first
  have agrees := agree _ _ _ _ _ _ head headEnd host backend (oneRouteLog_runs foldedHost)
    written nofun first sent
  have read : received .client (oneRouteLog foldedHost).tail = foldedHost := by decide +kernel
  have complete : findHeadEnd foldedHost = some 61 := by decide +kernel
  have named : hostOf (foldedHost.take 61) = some "app.test" := by decide +kernel
  obtain rfl := read.symm.trans sent.routed.received
  obtain rfl := Option.some.inj (complete.symm.trans sent.routed.complete)
  obtain rfl := Option.some.inj (named.symm.trans sent.routed.named)
  obtain ⟨value, one, same⟩ := agrees
  have field : fieldValues (bytesOf "host") (fieldLines (forwardedHead false foldedHost 61)) =
      [bytesOf "admin.test"] := by decide +kernel
  obtain rfl := (List.cons.inj (field.symm.trans one)).1
  revert same
  decide +kernel

/-- A head as it is mostly written. -/
def usualHost : List UInt8 :=
  bytesOf "GET / HTTP/1.1\r\nHost: App.test:8080\r\nAccept: */*\r\n\r\n"

theorem hosts_agree_usualHost : ∃ head headEnd host backend,
    Sent false usualHost (oneRouteLog usualHost).tail head headEnd host backend ∧
      Agrees (forwardedHead false head headEnd) host := by
  have newest : (oneRouteLog usualHost).head?.map Sigma.fst =
      some (.writeAll .tcp usualHost) := by decide +kernel
  obtain ⟨failed, written⟩ := oneRouteLog_written newest
  have first : ¬ WroteUpstream (oneRouteLog usualHost).tail := not_wroteUpstream (by decide +kernel)
  obtain ⟨head, headEnd, host, backend, sent, agrees⟩ :=
    hosts_agree_iff oneRouteFront false _ _ _ _ _ _ (oneRouteLog_runs usualHost) written nofun first
  refine ⟨head, headEnd, host, backend, sent, agrees.mpr ?_⟩
  have read : received .client (oneRouteLog usualHost).tail = usualHost := by decide +kernel
  have complete : findHeadEnd usualHost = some 52 := by decide +kernel
  obtain rfl := read.symm.trans sent.routed.received
  obtain rfl := Option.some.inj (complete.symm.trans sent.routed.complete)
  have rest : further (bytesOf "Accept: */*\r\n\r\n") = [bytesOf "Accept: */*"] := by decide +kernel
  have line : hostLine (outgoing false (headLines usualHost 52)) =
      some (bytesOf "GET / HTTP/1.1\r\n", bytesOf "Host: App.test:8080\r\n",
        bytesOf "Accept: */*\r\n\r\n") := by decide +kernel
  have starts : startsField (bytesOf "GET / HTTP/1.1\r\n") (bytesOf "Host: App.test:8080\r\n") =
      true := by decide +kernel
  refine ⟨_, _, _, line, ?_⟩
  rw [if_pos starts]
  refine ⟨by decide +kernel, ?_, .inl ⟨?_, ?_⟩⟩
  · rw [rest]
    exact List.forall_mem_singleton.mpr (by decide +kernel)
  · have none : continuations (bytesOf "Accept: */*\r\n\r\n") = [] := by decide +kernel
    rw [none]
    exact fun other member => absurd member List.not_mem_nil
  · decide +kernel

end StormLb.Router
