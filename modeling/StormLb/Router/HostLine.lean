import StormLb.Router.Head
import StormLb.Router.Poll
import StormLb.Text.Ascii
import StormLb.Text.Cut

/-!
# The Host line among the others

A request is demultiplexed by its Host line wherever that stands, unless a line
before it is no text: the reading of the head gives up there.
-/

namespace StormLb.Router

open StormLb.Text

/-! ## A head by its lines -/

/-- What a header's name is made of. -/
def isTokenChar (c : Char) : Bool :=
  c.isAlphanum || "!#$%&'*+-.^_`|~".toList.contains c

/-- A header line, its value any bytes without CR or LF. -/
structure HeaderLine where
  name : List Char
  value : List UInt8
  nonempty : name ≠ []
  token : ∀ c ∈ name, isTokenChar c = true
  clean : ∀ b ∈ value, b ≠ 13 ∧ b ≠ 10

/-- The line names the host, in any case. -/
def HeaderLine.isHost (line : HeaderLine) : Bool :=
  eqIgnoreAsciiCase line.name "host".toList

def HeaderLine.bytes (line : HeaderLine) : List UInt8 :=
  utf8 line.name ++ bytesOf ": " ++ line.value ++ bytesOf "\r\n"

/-- A hostname, in any case, and a port. -/
structure Hostname where
  host : List Char
  port : Option (List Char)
  noColon : ':' ∉ host
  solid : ∀ c ∈ host, isWhitespace c = false
  digits : ∀ digits ∈ port, ∀ c ∈ digits, c.isDigit = true

/-- `host`, or `host:port`. -/
def Hostname.text (name : Hostname) : List Char :=
  name.host ++ (name.port.map (':' :: ·)).getD []

/-- A head with one Host line, among others before and after it. -/
structure HeadText where
  requestLine : List UInt8
  before : List HeaderLine
  hostLine : HeaderLine
  after : List HeaderLine
  hostname : Hostname
  oneLine : newline ∉ requestLine
  named : hostLine.isHost = true
  value : hostLine.value = utf8 hostname.text
  others : ∀ line ∈ before ++ after, line.isHost = false

def HeadText.bytes (head : HeadText) : List UInt8 :=
  head.requestLine ++ bytesOf "\r\n" ++
    (head.before ++ head.hostLine :: head.after).flatMap HeaderLine.bytes ++ bytesOf "\r\n"

/-- The hostname in lower case, as the table's keys are. -/
def HeadText.key (head : HeadText) : String :=
  String.ofList (toAsciiLowercase head.hostname.host)

/-! ## Its lines, read -/

theorem isTokenChar_solid {c : Char} (token : isTokenChar c = true) :
    isWhitespace c = false ∧ c ≠ ':' := by
  have small : c.toNat < 128 := by
    rw [isTokenChar, Bool.or_eq_true] at token
    rcases token with letter | mark
    · have below (last : Char) (ascii : last.val.toNat < 128) (most : c.val ≤ last.val) :
          c.toNat < 128 :=
        Nat.lt_of_le_of_lt (UInt32.le_iff_toNat_le.mp most) ascii
      rcases Bool.or_eq_true_iff.mp letter with alpha | digit
      · rcases Bool.or_eq_true_iff.mp alpha with upper | lower
        · have upper : decide (c.val ≥ 'A'.val ∧ c.val ≤ 'Z'.val) = true := upper
          exact below 'Z' (by decide) (of_decide_eq_true upper).2
        · exact below 'z' (by decide) (of_decide_eq_true (Bool.and_eq_true_iff.mp lower).2)
      · exact below '9' (by decide) (of_decide_eq_true (Bool.and_eq_true_iff.mp digit).2)
    · have all : ("!#$%&'*+-.^_`|~".toList.all fun d => d.toNat < 128) = true := by decide
      exact of_decide_eq_true (List.all_eq_true.mp all c (List.contains_iff_mem.mp mark))
  have all : ∀ n < 128, isTokenChar (Char.ofNat n) = true →
      isWhitespace (Char.ofNat n) = false ∧ Char.ofNat n ≠ ':' := by decide +kernel
  rw [← Char.ofNat_toNat c] at token ⊢
  exact all c.toNat small token

/-- The line without its newline. -/
def HeaderLine.shown (line : HeaderLine) : List UInt8 :=
  utf8 line.name ++ 58 :: 32 :: (line.value ++ 13 :: [])

/-- The text of the line, if its value is one. -/
def HeaderLine.textOf (line : HeaderLine) (value : List Char) : List Char :=
  line.name ++ ':' :: ' ' :: (value ++ ['\r'])

section

variable (line : HeaderLine)

theorem HeaderLine.bytes_eq : line.bytes = line.shown ++ newline :: [] := by
  have colon : bytesOf ": " = [58, 32] := by decide +kernel
  have crlf : bytesOf "\r\n" = [13, 10] := by decide +kernel
  simp [HeaderLine.bytes, HeaderLine.shown, colon, crlf, newline]

theorem HeaderLine.fromUtf8_shown :
    fromUtf8 line.shown = (fromUtf8 line.value).map line.textOf := by
  have colon : asciiChar 58 = ':' := by decide
  have space : asciiChar 32 = ' ' := by decide
  have return_ : asciiChar 13 = '\r' := by decide
  have tail : fromUtf8 (32 :: (line.value ++ 13 :: [])) =
      (fromUtf8 line.value).map fun value => ' ' :: (value ++ ['\r']) := by
    have start : (32 : UInt8) :: (line.value ++ 13 :: []) = [] ++ 32 :: (line.value ++ 13 :: []) := rfl
    rw [start, fromUtf8_append_cons (by decide), fromUtf8_append_cons (by decide), return_, space]
    cases fromUtf8 line.value with
    | none => rfl
    | some value => rfl
  rw [HeaderLine.shown, fromUtf8_append_cons (by decide), fromUtf8_utf8, tail, colon]
  cases fromUtf8 line.value with
  | none => rfl
  | some value => rfl

theorem HeaderLine.solid {c : Char} (member : c ∈ line.name) :
    isWhitespace c = false ∧ c ≠ ':' :=
  isTokenChar_solid (line.token c member)

theorem HeaderLine.newline_not_mem_shown : newline ∉ line.shown := by
  intro member
  rcases List.mem_append.mp member with named | valued
  · have white := (line.solid ((mem_utf8_iff (c := '\n') (by decide) (by decide)).mp named)).1
    revert white
    decide
  · simp only [List.mem_cons, List.mem_append, List.not_mem_nil, or_false] at valued
    rcases valued with same | same | inside | same
    · exact absurd same (by decide)
    · exact absurd same (by decide)
    · exact (line.clean _ inside).2 rfl
    · exact absurd same (by decide)

/-- What the reading of a line makes of it. -/
theorem HeaderLine.trim_textOf (value : List Char) :
    trim (line.textOf value) =
      line.name ++ ':' :: (' ' :: (value ++ ['\r'])).rdropWhile isWhitespace := by
  have start : line.name.dropWhile isWhitespace = line.name := by
    cases name : line.name with
    | nil => rfl
    | cons c rest =>
        have solid := (line.solid (name ▸ List.mem_cons_self : c ∈ line.name)).1
        exact List.dropWhile_cons_of_neg (Bool.not_eq_true _ ▸ solid)
  rw [HeaderLine.textOf, trim_append_cons (by decide), start]

theorem HeaderLine.trim_name : trim line.name = line.name :=
  trim_of_solid fun _ member => (line.solid member).1

theorem HeaderLine.splitOnce_trim (value : List Char) :
    splitOnce ':' (trim (line.textOf value)) =
      some (line.name, (' ' :: (value ++ ['\r'])).rdropWhile isWhitespace) := by
  rw [line.trim_textOf]
  exact splitOnce_append_cons fun member => (line.solid member).2 rfl

theorem HeaderLine.trim_ne_nil (value : List Char) : trim (line.textOf value) ≠ [] := by
  rw [line.trim_textOf]
  simp

/-- A line that does not name the host is passed over, unless it is no text. -/
theorem hostIn_cons_other (other : line.isHost = false) (rest : List (List UInt8)) :
    hostIn (line.shown :: rest) = if (fromUtf8 line.value).isSome then hostIn rest else none := by
  rw [hostIn, line.fromUtf8_shown]
  cases fromUtf8 line.value with
  | none => rfl
  | some value =>
      simp only [Option.map_some, if_neg (line.trim_ne_nil value), line.splitOnce_trim, line.trim_name]
      exact if_neg (Bool.not_eq_true _ ▸ other)

/-- The line that names it gives its value. -/
theorem hostIn_cons_host (named : line.isHost = true) {value : List Char}
    (decoded : fromUtf8 line.value = some value) (rest : List (List UInt8)) :
    hostIn (line.shown :: rest) =
      some (stripPort (toAsciiLowercase (trim ((' ' :: (value ++ ['\r'])).rdropWhile isWhitespace)))) := by
  rw [hostIn, line.fromUtf8_shown, decoded]
  simp only [Option.map_some, if_neg (line.trim_ne_nil value), line.splitOnce_trim, line.trim_name]
  exact if_pos named

end

theorem hostIn_append_others (lines : List HeaderLine) (others : ∀ line ∈ lines, line.isHost = false)
    (rest : List (List UInt8)) :
    hostIn (lines.map HeaderLine.shown ++ rest) =
      if ∀ line ∈ lines, (fromUtf8 line.value).isSome then hostIn rest else none := by
  induction lines with
  | nil => simp
  | cons line lines ih =>
      obtain ⟨other, others⟩ := List.forall_mem_cons.mp others
      rw [List.map_cons, List.cons_append, hostIn_cons_other line other, ih others]
      simp only [List.forall_mem_cons]
      cases (fromUtf8 line.value).isSome with
      | false => simp
      | true => simp

/-! ## The hostname in the value -/

theorem isDigit_solid {c : Char} (digit : c.isDigit = true) : isWhitespace c = false ∧ c ≠ ':' :=
  isTokenChar_solid (Bool.or_eq_true_iff.mpr (.inl (Bool.or_eq_true_iff.mpr (.inr digit))))

theorem Hostname.text_solid (name : Hostname) : ∀ c ∈ name.text, isWhitespace c = false := by
  intro c member
  rcases List.mem_append.mp member with inHost | inPort
  · exact name.solid c inHost
  · cases port : name.port with
    | none =>
        rw [port] at inPort
        cases inPort
    | some digits =>
        rw [port] at inPort
        rcases List.mem_cons.mp inPort with rfl | digit
        · decide
        · exact (isDigit_solid (name.digits digits port c digit)).1

/-- The white space around the value is trimmed away. -/
theorem trim_value {text : List Char} (solid : ∀ c ∈ text, isWhitespace c = false) :
    trim ((' ' :: (text ++ ['\r'])).rdropWhile isWhitespace) = text := by
  rw [← List.cons_append, List.rdropWhile_concat_pos _ _ _ (by decide)]
  rcases List.eq_nil_or_concat text with rfl | ⟨start, last, rfl⟩
  · decide
  · rw [List.concat_eq_append] at solid ⊢
    have final : isWhitespace last = false := solid last (by simp)
    rw [← List.cons_append, List.rdropWhile_concat_neg _ _ _ (by simp [final]), trim,
      List.cons_append, List.dropWhile_cons_of_pos (by decide)]
    exact trim_of_solid solid

/-- A port is stripped. -/
theorem stripPort_text (name : Hostname) :
    stripPort (toAsciiLowercase name.text) = toAsciiLowercase name.host := by
  have absent : ':' ∉ toAsciiLowercase name.host :=
    not_mem_toAsciiLowercase (by decide) name.noColon
  unfold stripPort Hostname.text
  cases port : name.port with
  | none =>
      rw [Option.map_none, Option.getD_none, List.append_nil, rsplitOnce_eq_none absent]
  | some digits =>
      have digit := name.digits digits port
      have lower : toAsciiLowercase digits = digits :=
        (List.map_congr_left fun c member => toLower_of_isDigit (digit c member)).trans (List.map_id _)
      have noColon : ':' ∉ digits := fun member => (isDigit_solid (digit _ member)).2 rfl
      have colon : toAsciiLowercase (name.host ++ ':' :: digits) =
          toAsciiLowercase name.host ++ ':' :: digits := by
        rw [toAsciiLowercase, List.map_append, List.map_cons]
        exact congrArg (fun rest => _ ++ ':' :: rest) lower
      rw [Option.map_some, Option.getD_some, colon, rsplitOnce_append_cons noColon]
      exact if_pos (List.all_eq_true.mpr digit)

/-! ## The lines of the head -/

theorem splitOn_lines (lines : List HeaderLine) (rest : List UInt8) :
    (lines.flatMap HeaderLine.bytes ++ rest).splitOn newline =
      lines.map HeaderLine.shown ++ rest.splitOn newline := by
  induction lines with
  | nil => rfl
  | cons line lines ih =>
      rw [List.flatMap_cons, line.bytes_eq, List.append_assoc, List.append_assoc,
        List.singleton_append, List.splitOn_append_cons_self_of_not_mem line.newline_not_mem_shown, ih]
      rfl

theorem HeadText.lines (head : HeadText) : (head.bytes.splitOn newline).drop 1 =
    (head.before ++ head.hostLine :: head.after).map HeaderLine.shown ++ [[13], []] := by
  have crlf : bytesOf "\r\n" = [13] ++ newline :: [] := by decide +kernel
  have request : newline ∉ head.requestLine ++ [13] := by
    intro member
    rcases List.mem_append.mp member with inside | same
    · exact head.oneLine inside
    · exact absurd same (by decide)
  have split : head.bytes = (head.requestLine ++ [13]) ++ newline ::
      ((head.before ++ head.hostLine :: head.after).flatMap HeaderLine.bytes ++ bytesOf "\r\n") := by
    simp [HeadText.bytes, crlf]
  rw [split, List.splitOn_append_cons_self_of_not_mem request, List.drop_one, List.tail_cons,
    splitOn_lines]
  refine congrArg _ ?_
  decide +kernel

/-- The host is found unless a value before its line is no text. -/
theorem hostOf_bytes (head : HeadText) : hostOf head.bytes =
    if ∀ line ∈ head.before, (fromUtf8 line.value).isSome then some head.key else none := by
  have before : ∀ line ∈ head.before, line.isHost = false := fun line member =>
    head.others line (List.mem_append_left _ member)
  have decoded : fromUtf8 head.hostLine.value = some head.hostname.text := by
    rw [head.value, fromUtf8_utf8]
  rw [hostOf, head.lines, List.map_append, List.append_assoc, List.map_cons, List.cons_append,
    hostIn_append_others head.before before, hostIn_cons_host head.hostLine head.named decoded,
    trim_value head.hostname.text_solid, stripPort_text]
  split
  · rfl
  · rfl

/-! ## The table -/

/-- The hostnames of a route as it has them. -/
def givenHostnames (route : Json) : List String :=
  ((route.get "spec").get "hostnames").elements.filterMap Json.asStr

/-- A route of the table: one with a backend, of a Service whose lookup did not fail. -/
def Apiserver.InTable (server : Apiserver) (api : String) (token : Option String) (route : Json) :
    Prop :=
  route ∈ server.kept 1 (server.listed api token) ∧ (server.backend api token route).isSome = true

theorem lowercase_eq_iff {name : String} {host : List Char} :
    lowercase name = String.ofList (toAsciiLowercase host) ↔
      eqIgnoreAsciiCase name.toList host = true := by
  rw [lowercase, String.ofList_inj, eqIgnoreAsciiCase, decide_eq_true_eq]

theorem lastBackend_isSome_iff {server : Apiserver} {api : String} {token : Option String}
    {host : String} (routes : List Json) :
    (server.lastBackend api token host routes).isSome = true ↔
      ∃ route ∈ routes, (server.backend api token route).isSome = true ∧ host ∈ hostnames route := by
  induction routes with
  | nil => simp [Apiserver.lastBackend]
  | cons route rest ih =>
      rw [Apiserver.lastBackend, Option.isSome_or, Bool.or_eq_true, ih]
      by_cases named : host ∈ hostnames route
      · simp [named, or_comm]
      · simp [named]

/-- The table is hit by the names of its routes, in any case. -/
theorem fetchTable_hit_iff {server : Apiserver} {api : String} {token : Option String} {table : Table}
    (fetched : ((fetchTable api token).serve server.answer 0).1 = .ok table) (host : List Char) :
    (table[String.ofList (toAsciiLowercase host)]?).isSome = true ↔
      ∃ route, server.InTable api token route ∧
        ∃ name ∈ givenHostnames route, eqIgnoreAsciiCase name.toList host = true := by
  have made := serve_fetchTable server api token
  rw [fetched] at made
  have same : table = (server.kept 1 (server.listed api token)).foldl (server.add api token) ∅ := by
    split at made
    · obtain ⟨error, failed⟩ := made
      cases failed
    · rcases made with ⟨error, failed, _⟩ | made
      · cases failed
      · exact Except.ok.inj made
  rw [same, empty_foldl_add_getElem?, lastBackend_isSome_iff]
  constructor
  · rintro ⟨route, kept, backed, named⟩
    obtain ⟨name, given, lowered⟩ := List.mem_map.mp named
    exact ⟨route, ⟨kept, backed⟩, name, given, lowercase_eq_iff.mp lowered⟩
  · rintro ⟨route, ⟨kept, backed⟩, name, given, lowered⟩
    exact ⟨route, kept, backed, List.mem_map.mpr ⟨name, given, lowercase_eq_iff.mpr lowered⟩⟩

/-! ## Demultiplexing -/

/-- The host is read, and with it the table is hit as the routes' names say. -/
def HeadText.Demultiplexed (head : HeadText) : Prop :=
  hostOf head.bytes = some head.key ∧
    ∀ (server : Apiserver) (api : String) (token : Option String) (table : Table),
      ((fetchTable api token).serve server.answer 0).1 = .ok table →
        (((hostOf head.bytes).bind fun host => table[host]?).isSome = true ↔
          ∃ route, server.InTable api token route ∧
            ∃ name ∈ givenHostnames route, eqIgnoreAsciiCase name.toList head.hostname.host = true)

/--
The Host line alone decides if and only if the value of every line before it is
UTF-8.
-/
theorem demultiplexed_iff (head : HeadText) :
    head.Demultiplexed ↔ ∀ line ∈ head.before, (fromUtf8 line.value).isSome = true := by
  rw [HeadText.Demultiplexed, hostOf_bytes]
  split
  · rename_i texts
    refine iff_of_true ⟨rfl, fun server api token table fetched => ?_⟩ texts
    exact fetchTable_hit_iff fetched head.hostname.host
  · rename_i broken
    refine iff_of_false ?_ broken
    rintro ⟨found, _⟩
    cases found

/-- `X-Name:` with a byte that is no UTF-8, before `Host: App.test`. -/
def latinName : HeadText where
  requestLine := bytesOf "GET / HTTP/1.1"
  before := [{
    name := "X-Name".toList
    value := [233]
    nonempty := by decide
    token := List.all_eq_true.mp (by decide)
    clean := List.forall_mem_singleton.mpr (by decide) }]
  hostLine := {
    name := "Host".toList
    value := bytesOf "App.test"
    nonempty := by decide
    token := List.all_eq_true.mp (by decide)
    clean := by
      have all : ((bytesOf "App.test").all fun b => b ≠ 13 ∧ b ≠ 10) = true := by decide +kernel
      exact fun b member => of_decide_eq_true (List.all_eq_true.mp all b member) }
  after := []
  hostname := {
    host := "App.test".toList
    port := none
    noColon := by decide
    solid := by
      have all : ("App.test".toList.all fun c => isWhitespace c = false) = true := by decide
      exact fun c member => of_decide_eq_true (List.all_eq_true.mp all c member)
    digits := nofun }
  oneLine := by decide +kernel
  named := by decide
  value := rfl
  others := List.forall_mem_singleton.mpr (by decide)

theorem latinName_missed : ¬ latinName.Demultiplexed := by
  rintro ⟨found, _⟩
  have missed : hostOf latinName.bytes = none := by decide +kernel
  rw [missed] at found
  cases found

end StormLb.Router
