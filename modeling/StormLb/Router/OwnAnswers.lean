import StormLb.Effects.Trace
import StormLb.Net.Http
import StormLb.Router.Scene
import StormLb.Text.Ascii
import StormLb.Text.Cut

/-!
# The router's own answers

What the router answers itself is one HTTP response, but for a redirect whose
location carries a CR or a NUL out of the request.
-/

namespace StormLb.Router

open StormLb.Effects StormLb.Net StormLb.Text

/-! ## The pieces of a request that are answered with -/

/-- What is split at is in no piece. -/
theorem forall_mem_of_mem_splitOnP {α : Type} {separates : α → Bool} {whole piece : List α}
    (member : piece ∈ whole.splitOnP separates) : ∀ a ∈ piece, separates a = false := by
  induction whole generalizing piece with
  | nil =>
      rw [List.splitOnP_nil, List.mem_singleton] at member
      rw [member]
      exact fun a inside => absurd inside List.not_mem_nil
  | cons a whole ih =>
      rw [List.splitOnP_cons_eq_if_modifyHead] at member
      split at member
      · rcases List.mem_cons.mp member with rfl | later
        · exact fun a inside => absurd inside List.not_mem_nil
        · exact ih later
      · rename_i other
        cases pieces : whole.splitOnP separates with
        | nil => exact absurd pieces (List.splitOnP_ne_nil _ _)
        | cons first more =>
            rw [pieces] at ih
            rw [pieces, List.modifyHead_cons] at member
            rcases List.mem_cons.mp member with rfl | later
            · exact List.forall_mem_cons.mpr
                ⟨Bool.not_eq_true _ ▸ other, ih List.mem_cons_self⟩
            · exact ih (List.mem_cons_of_mem _ later)

theorem not_mem_of_mem_splitOn {separator : UInt8} {bytes piece : List UInt8}
    (member : piece ∈ bytes.splitOn separator) : separator ∉ piece := by
  rw [List.splitOn_eq_splitOnP] at member
  exact fun inside => by simpa using forall_mem_of_mem_splitOnP member separator inside

theorem trim_sublist (text : List Char) : (trim text).Sublist text :=
  (List.rdropWhile_prefix _ _).sublist.trans (List.dropWhile_suffix _).sublist

theorem splitOnce_eq_some {separator : Char} {text before after : List Char}
    (split : splitOnce separator text = some (before, after)) :
    text = before ++ separator :: after := by
  induction text generalizing before with
  | nil => cases split
  | cons c text ih =>
      rw [splitOnce] at split
      split at split
      · rename_i same
        cases split
        rw [same]
        rfl
      · obtain ⟨⟨start, rest⟩, inner, same⟩ := Option.map_eq_some_iff.mp split
        cases same
        rw [ih inner]
        rfl

theorem mem_of_mem_stripPort {c : Char} {host : List Char} (member : c ∈ stripPort host) :
    c ∈ host := by
  unfold stripPort at member
  split at member
  · rename_i name port split
    split at member
    · obtain ⟨⟨start, rest⟩, inner, same⟩ := Option.map_eq_some_iff.mp split
      cases same
      have whole := splitOnce_eq_some inner
      rw [← List.mem_reverse, whole]
      exact List.mem_append_right _ (List.mem_cons_of_mem _ (List.mem_reverse.mp member))
    · exact member
  · exact member

/-- A host is on one line. -/
theorem newline_not_mem_hostIn {lines : List (List UInt8)} {host : List Char}
    (oneLine : ∀ line ∈ lines, newline ∉ line) (found : hostIn lines = some host) :
    '\n' ∉ host := by
  induction lines with
  | nil => cases found
  | cons bytes rest ih =>
      obtain ⟨here, later⟩ := List.forall_mem_cons.mp oneLine
      rw [hostIn] at found
      split at found
      · cases found
      · rename_i text decoded
        have absent : '\n' ∉ text := by
          intro member
          rw [← fromUtf8_eq_some_iff.mp decoded] at here
          exact here ((mem_utf8_iff (by decide) (by decide)).mpr member)
        dsimp only at found
        split at found
        · cases found
        · split at found
          · rename_i name value split
            split at found
            · cases found
              intro member
              refine absurd (mem_of_mem_stripPort member) ?_
              refine not_mem_toAsciiLowercase (by decide) fun inside => absent ?_
              have whole := splitOnce_eq_some split
              refine (trim_sublist text).subset ?_
              rw [whole]
              exact List.mem_append_right _
                (List.mem_cons_of_mem _ ((trim_sublist value).subset inside))
            · exact ih later found
          · exact ih later found

theorem newline_not_mem_hostOf {head : List UInt8} {host : String} (found : hostOf head = some host) :
    '\n' ∉ host.toList := by
  obtain ⟨text, inside, rfl⟩ := Option.map_eq_some_iff.mp found
  rw [String.toList_ofList]
  exact newline_not_mem_hostIn
    (fun line member => not_mem_of_mem_splitOn (List.mem_of_mem_drop member)) inside

/-- The words of a text are not empty, and have no white space in them. -/
theorem solid_of_mem_splitWhitespace {text word : List Char} (member : word ∈ splitWhitespace text) :
    word ≠ [] ∧ ∀ c ∈ word, isWhitespace c = false := by
  obtain ⟨piece, some⟩ := List.mem_filter.mp member
  exact ⟨of_decide_eq_true some, forall_mem_of_mem_splitOnP piece⟩

/-- The target of a redirect. -/
theorem target_solid (request : List UInt8) :
    ∃ rest : List Char, ((requestTarget request).getD "/").toList = '/' :: rest ∧
      ∀ c ∈ '/' :: rest, isWhitespace c = false := by
  unfold requestTarget
  cases word : requestWord request with
  | none => exact ⟨[], rfl, List.forall_mem_singleton.mpr (by decide)⟩
  | some text =>
      rw [Option.filter_some]
      split
      · rename_i slash
        unfold requestWord at word
        obtain ⟨line, _, decoded⟩ := Option.bind_eq_some_iff.mp word
        obtain ⟨chars, _, second⟩ := Option.bind_eq_some_iff.mp decoded
        obtain ⟨_, solid⟩ := solid_of_mem_splitWhitespace (List.mem_of_getElem? second)
        obtain ⟨rest, rfl⟩ := List.head?_eq_some_iff.mp (of_decide_eq_true slash)
        exact ⟨rest, String.toList_ofList, solid⟩
      · exact ⟨[], rfl, List.forall_mem_singleton.mpr (by decide)⟩

/-! ## The answers -/

/-- One response, and nothing else. -/
def IsResponse (bytes : List UInt8) : Prop :=
  ∃ response : HttpResponse, response.bytes = bytes

theorem bytesOf_append (first second : String) :
    bytesOf (first ++ second) = bytesOf first ++ bytesOf second := by
  rw [bytesOf, String.toList_append, utf8_append]
  rfl

def typeField : HeaderField where
  name := bytesOf "content-type"
  value := bytesOf " text/plain"
  named := by decide +kernel
  noColon := by decide +kernel
  cleanName := by decide +kernel
  cleanValue := by decide +kernel

def closeField : HeaderField where
  name := bytesOf "connection"
  value := bytesOf " close"
  named := by decide +kernel
  noColon := by decide +kernel
  cleanName := by decide +kernel
  cleanValue := by decide +kernel

theorem typeField_isLength : typeField.isLength = false := by decide +kernel

theorem closeField_isLength : closeField.isLength = false := by decide +kernel

/-- The content-length is the only one among such fields. -/
theorem sized_of_others {before after : List HeaderField} {n : Nat}
    (others : ∀ field ∈ before ++ after, field.isLength = false) :
    ((before ++ lengthField n :: after).filter HeaderField.isLength).map HeaderField.content =
      [bytesOf (toString n)] := by
  have none {fields : List HeaderField} (others : ∀ field ∈ fields, field.isLength = false) :
      fields.filter HeaderField.isLength = [] :=
    List.filter_eq_nil_iff.mpr fun field member => Bool.not_eq_true _ ▸ others field member
  rw [List.filter_append, none fun field member => others field (List.mem_append_left _ member),
    List.filter_cons_of_pos (lengthField_isLength n),
    none fun field member => others field (List.mem_append_right _ member), List.nil_append,
    List.map_singleton, lengthField_content]

/-- The answer to a request without a host. -/
def badRequestResponse : HttpResponse where
  code := bytesOf "400"
  reason := bytesOf "Bad Request"
  fields := [lengthField 26, closeField]
  body := bytesOf "this router needs a Host\n\n"
  threeDigits := by decide +kernel
  cleanReason := by decide +kernel
  sized := by
    have body : (bytesOf "this router needs a Host\n\n").length = 26 := by decide +kernel
    rw [body]
    exact @sized_of_others [] _ _ (List.forall_mem_singleton.mpr closeField_isLength)

theorem badRequest_isResponse : IsResponse badRequest :=
  ⟨badRequestResponse, by decide +kernel⟩

theorem textResponse_isResponse {status code reason : String}
    (parts : status = code ++ " " ++ reason)
    (digits : (bytesOf code).length = 3 ∧ (bytesOf code).all isAsciiDigit = true)
    (clean : Clean (bytesOf reason)) (body : String) : IsResponse (textResponse status body) := by
  let response : HttpResponse := {
    code := bytesOf code
    reason := bytesOf reason
    fields := [typeField, lengthField (bytesOf body).length, closeField]
    body := bytesOf body
    threeDigits := digits
    cleanReason := clean
    sized := @sized_of_others [typeField] _ _
      (by simp [typeField_isLength, closeField_isLength]) }
  refine ⟨response, ?_⟩
  have first : bytesOf "\r\ncontent-type: text/plain\r\ncontent-length: " =
      crlf ++ (typeField.line ++ (crlf ++ ((lengthField 0).name ++ [58, 32]))) := by decide +kernel
  have last : bytesOf "\r\nconnection: close\r\n\r\n" = crlf ++ (closeField.line ++ (crlf ++ crlf)) := by
    decide +kernel
  have blank : bytesOf " " = [32] := by decide +kernel
  change _ = bytesOf ("HTTP/1.1 " ++ status ++ "\r\ncontent-type: text/plain\r\ncontent-length: " ++
    toString (bytesOf body).length ++ "\r\nconnection: close\r\n\r\n" ++ body)
  simp only [parts, bytesOf_append, first, last, blank]
  simp [response, HttpResponse.bytes, HttpResponse.statusLine, HttpResponse.head, HeaderField.line,
    lengthField]

theorem alive_isResponse : IsResponse alive :=
  @textResponse_isResponse _ "200" "OK" (by decide) (by decide +kernel) (by decide +kernel) _

theorem notFound_isResponse (host : String) : IsResponse (notFound host) :=
  @textResponse_isResponse _ "404" "Not Found" (by decide) (by decide +kernel) (by decide +kernel) _

/-! ## The redirect -/

/-- No character of a text ends a line or is NUL. -/
theorem clean_bytesOf_iff {text : String} : Clean (bytesOf text) ↔
    '\r' ∉ text.toList ∧ '\n' ∉ text.toList ∧ '\x00' ∉ text.toList := by
  have carriage : (13 : UInt8) ∈ bytesOf text ↔ '\r' ∈ text.toList :=
    mem_utf8_iff (by decide) (by decide)
  have feed : (10 : UInt8) ∈ bytesOf text ↔ '\n' ∈ text.toList :=
    mem_utf8_iff (by decide) (by decide)
  have null : (0 : UInt8) ∈ bytesOf text ↔ '\x00' ∈ text.toList :=
    mem_utf8_iff (by decide) (by decide)
  rw [← carriage, ← feed, ← null]
  constructor
  · intro clean
    exact ⟨fun here => (clean 13 here).1 rfl, fun here => (clean 10 here).2.1 rfl,
      fun here => (clean 0 here).2.2 rfl⟩
  · rintro ⟨noCarriage, noFeed, noNull⟩ b member
    refine ⟨?_, ?_, ?_⟩
    · rintro rfl
      exact noCarriage member
    · rintro rfl
      exact noFeed member
    · rintro rfl
      exact noNull member

/-- What a redirect's location is pasted together from. -/
def location (host : String) (port : UInt16) (target : String) : List UInt8 :=
  bytesOf "https://" ++ (bytesOf host ++
    (bytesOf (if port = 443 then "" else s!":{port.toNat}") ++ bytesOf target))

theorem clean_port (port : UInt16) : Clean (bytesOf (if port = 443 then "" else s!":{port.toNat}")) := by
  split
  · decide +kernel
  · change Clean (bytesOf (":" ++ toString port.toNat))
    rw [bytesOf_append]
    exact clean_append.mpr ⟨by decide +kernel,
      HttpResponse.clean_of_digits (bytesOf_toString_digits port.toNat)⟩

theorem clean_location {host target : String} (port : UInt16) :
    Clean (location host port target) ↔ Clean (bytesOf host) ∧ Clean (bytesOf target) := by
  have scheme : Clean (bytesOf "https://") := by decide +kernel
  rw [location, clean_append, clean_append, clean_append]
  simp only [scheme, clean_port port, true_and]

theorem redirectTo_eq (host : String) (port : UInt16) (target : String) :
    redirectTo host port target =
      bytesOf "HTTP/1.1 308 Permanent Redirect" ++ (crlf ++
        ((bytesOf "location: " ++ location host port target) ++ (crlf ++
          bytesOf "content-length: 0\r\nconnection: close\r\n\r\n"))) := by
  have first : bytesOf "HTTP/1.1 308 Permanent Redirect\r\nlocation: https://" =
      bytesOf "HTTP/1.1 308 Permanent Redirect" ++
        (crlf ++ (bytesOf "location: " ++ bytesOf "https://")) := by decide +kernel
  have last : bytesOf "\r\ncontent-length: 0\r\nconnection: close\r\n\r\n" =
      crlf ++ bytesOf "content-length: 0\r\nconnection: close\r\n\r\n" := by decide +kernel
  change bytesOf ("HTTP/1.1 308 Permanent Redirect\r\nlocation: https://" ++ host ++
    (if port = 443 then "" else s!":{port.toNat}") ++ target ++
      "\r\ncontent-length: 0\r\nconnection: close\r\n\r\n") = _
  simp only [bytesOf_append, first, last, location, List.append_assoc]

section

variable {host target : String} {port : UInt16} {rest : List Char}

/-- A location ends with its target, so it is a line that CRLF ends. -/
theorem endable_location (oneLine : '\n' ∉ host.toList) (slash : target.toList = '/' :: rest)
    (solid : ∀ c ∈ '/' :: rest, isWhitespace c = false) :
    Endable (bytesOf "location: " ++ location host port target) := by
  have noFeed {text : String} (absent : '\n' ∉ text.toList) : 10 ∉ bytesOf text := fun member =>
    absent ((mem_utf8_iff (by decide) (by decide)).mp member)
  have absent {c : Char} (white : isWhitespace c = true) : c ∉ target.toList := by
    intro member
    rw [slash] at member
    exact absurd (solid c member) (by rw [white]; decide)
  have scheme : (10 : UInt8) ∉ bytesOf "location: " ∧ (10 : UInt8) ∉ bytesOf "https://" := by
    decide +kernel
  constructor
  · simp only [location, List.mem_append, not_or]
    exact ⟨scheme.1, scheme.2, noFeed oneLine, fun member => (clean_port port 10 member).2.1 rfl,
      noFeed (absent (by decide))⟩
  · intro last
    have some : bytesOf target ≠ [] := by
      rw [bytesOf, slash, utf8_cons]
      exact List.append_ne_nil_of_left_ne_nil (by decide) _
    simp only [location, ← List.append_assoc] at last
    rw [List.getLast?_append_of_ne_nil _ some] at last
    exact absent (c := '\r') (by decide)
      ((mem_utf8_iff (by decide) (by decide)).mp (List.mem_of_getLast? last))

/-- A redirect is a response exactly if its host has no CR and neither part a NUL. -/
theorem redirectTo_isResponse_iff (oneLine : '\n' ∉ host.toList)
    (slash : target.toList = '/' :: rest) (solid : ∀ c ∈ '/' :: rest, isWhitespace c = false) :
    IsResponse (redirectTo host port target) ↔
      '\r' ∉ host.toList ∧ '\x00' ∉ host.toList ∧ '\x00' ∉ target.toList := by
  have noReturn : '\r' ∉ target.toList ∧ '\n' ∉ target.toList := by
    rw [slash]
    exact ⟨fun member => absurd (solid _ member) (by decide),
      fun member => absurd (solid _ member) (by decide)⟩
  have clean : Clean (location host port target) ↔
      '\r' ∉ host.toList ∧ '\x00' ∉ host.toList ∧ '\x00' ∉ target.toList := by
    rw [clean_location, clean_bytesOf_iff, clean_bytesOf_iff]
    tauto
  rw [← clean]
  have endable := @endable_location host target port rest oneLine slash solid
  constructor
  · rintro ⟨response, same⟩
    rw [redirectTo_eq] at same
    have name : bytesOf "location: " ++ location host port target ≠ [] :=
      List.append_ne_nil_of_left_ne_nil (by decide +kernel) _
    exact (clean_append.mp
      (response.clean_of_bytes_eq (by decide +kernel) endable name same)).2
  · intro cleanValue
    let field : HeaderField := {
      name := bytesOf "location"
      value := 32 :: location host port target
      named := by decide +kernel
      noColon := by decide +kernel
      cleanName := by decide +kernel
      cleanValue := clean_cons.mpr ⟨by decide, cleanValue⟩ }
    have notLength : field.isLength = false := by
      have other : (bytesOf "location").map asciiLower ≠ bytesOf "content-length" := by
        decide +kernel
      exact decide_eq_false other
    let response : HttpResponse := {
      code := bytesOf "308"
      reason := bytesOf "Permanent Redirect"
      fields := [field, lengthField 0, closeField]
      body := []
      threeDigits := by decide +kernel
      cleanReason := by decide +kernel
      sized := @sized_of_others [field] _ _ (by simp [notLength, closeField_isLength]) }
    refine ⟨response, ?_⟩
    have status : bytesOf "HTTP/1.1 " ++ bytesOf "308" ++ 32 :: bytesOf "Permanent Redirect" =
        bytesOf "HTTP/1.1 308 Permanent Redirect" := by decide +kernel
    have name : bytesOf "location: " = bytesOf "location" ++ [58, 32] := by decide +kernel
    have last : bytesOf "content-length: 0\r\nconnection: close\r\n\r\n" =
        (lengthField 0).line ++ (crlf ++ (closeField.line ++ (crlf ++ crlf))) := by decide +kernel
    rw [redirectTo_eq, last, name, ← status]
    simp [response, field, HttpResponse.bytes, HttpResponse.statusLine, HttpResponse.head,
      HeaderField.line]

end

/-! ## Every run -/

def clientWrite : Event Op Op.Ans → Option (List UInt8)
  | ⟨.writeAll .client bytes, _⟩ => some bytes
  | _ => none

/-- What was written to the client, one write after another. -/
def clientWrites (log : Log) : List (List UInt8) :=
  log.trace clientWrite

theorem clientWrite_eq_none {event : Event Op Op.Ans} (unchosen : chosenBy event = none) :
    clientWrite event = none := by
  obtain ⟨op, answer⟩ := event
  cases op with
  | writeAll stream bytes =>
      cases stream with
      | client => cases unchosen
      | tcp => rfl
      | tls connector name => rfl
  | _ => rfl

/-- Until something was chosen, nothing was written. -/
theorem clientWrites_of_undecided {log : Log} (undecided : choice log = none) :
    clientWrites log = [] := by
  induction log with
  | nil => rfl
  | cons event past ih =>
      obtain ⟨before, now⟩ := Option.or_eq_none_iff.mp undecided
      rw [clientWrites, History.trace_cons, clientWrite_eq_none now]
      exact congrArg (· ++ []) (ih before)

/-- Who answers, writes. -/
theorem clientWrites_of_answer {log : Log} {response : List UInt8}
    (made : choice log = some (.answer response)) : clientWrites log ≠ [] := by
  induction log with
  | nil => cases made
  | cons event past ih =>
      rw [clientWrites, History.trace_cons]
      cases before : choice past with
      | some chosen =>
          rw [choice_cons, before, Option.some_or] at made
          exact List.append_ne_nil_of_left_ne_nil (ih (before.trans made)) _
      | none =>
          rw [choice_cons, before, Option.none_or] at made
          obtain ⟨op, answer⟩ := event
          cases op with
          | writeAll stream bytes =>
              cases stream with
              | client => exact List.append_ne_nil_of_right_ne_nil _ (List.cons_ne_nil _ _)
              | _ => cases made
          | _ => cases made

theorem clientWrites_of_suffix {past log : Log} (suffix : past <:+ log) :
    clientWrites past <+: clientWrites log := by
  obtain ⟨newer, rfl⟩ := suffix
  induction newer with
  | nil => exact List.prefix_refl _
  | cons event newer ih => exact ih.trans (List.prefix_append _ _)

/-- A backend was dialled first. -/
def Dialled (log : Log) : Prop :=
  ∃ addr, choice log = some (.dial addr)

theorem Dialled.later (event : Event Op Op.Ans) (log : Log) (dialled : Dialled log) :
    Dialled (event :: log) := by
  obtain ⟨addr, made⟩ := dialled
  exact ⟨addr, by rw [choice_cons, made, Option.some_or]⟩

/-- A head that is being read, and nothing done for the client yet. -/
structure Undecided (scene : Scene) (head : List UInt8) (log : Log) : Prop where
  made : choice log = none
  whole : received .client log = head
  cut : head <+: scene.client

/-- Between two turns. -/
def Pending (scene : Scene) : Serving → Log → Prop
  | .reading head, log => Dialled log ∨ Undecided scene head log
  | .splicing _, log => Dialled log

/-- What was answered is what was to be, and nothing else was written. -/
def AnsweredOnce (scene : Scene) (front : Front) (tls : Bool) (log : Log) : Prop :=
  ∀ response, choice log = some (.answer response) → clientWrites log = [response] ∧
    ∃ headEnd, findHeadEnd scene.client = some headEnd ∧
      scene.decision front tls (scene.client.take headEnd) = .answer response

abbrev AnswersOnce (scene : Scene) (front : Front) (tls : Bool) : Serving ⊕ Exit → Log → Prop :=
  LoopPost (Pending scene) fun _ => AnsweredOnce scene front tls

section

variable {scene : Scene} {front : Front} {tls : Bool} {headEnd : Nat} {head : List UInt8}
  {log : Log}

/-- Once a backend was dialled, the router does not answer any more. -/
theorem under_of_dialled (dialled : Dialled log) (program : Prog (Serving ⊕ Exit)) :
    Program.Under scene.cuts (AnswersOnce scene front tls) program log := by
  refine (Program.under_of_lasting Dialled.later program dialled).weaken ?_
  intro value after dialled
  cases value with
  | inl serving =>
      cases serving with
      | reading head => exact .inl dialled
      | splicing splice => exact dialled
  | inr exit =>
      intro response made
      obtain ⟨addr, dials⟩ := dialled
      cases made.symm.trans dials

theorem once_respond {host code : String} {response : List UInt8} (undecided : choice log = none)
    (complete : findHeadEnd scene.client = some headEnd)
    (answers : scene.decision front tls (scene.client.take headEnd) = .answer response) :
    Program.Under scene.cuts (AnswersOnce scene front tls) (respond host code response) log := by
  intro _ _ failed _ chosen made
  have same : chosen = response := by
    rw [choice_cons, choice_cons, undecided] at made
    exact (Choice.answer.inj (Option.some.inj made)).symm
  rw [same]
  refine ⟨?_, headEnd, complete, answers⟩
  have before := clientWrites_of_undecided undecided
  rw [clientWrites] at before ⊢
  rw [History.trace_cons, History.trace_cons, before]
  rfl

theorem once_route {host : String} (undecided : choice log = none)
    (complete : findHeadEnd scene.client = some headEnd)
    (request : head.take headEnd = scene.client.take headEnd)
    (named : hostOf (scene.client.take headEnd) = some host)
    (stays : scene.redirected front tls (scene.client.take headEnd) = none) :
    Program.Under scene.cuts (AnswersOnce scene front tls)
      (front.route tls head headEnd host (scene.table host)) log := by
  cases entry : scene.table host with
  | some backend =>
      intro failed _
      refine under_of_dialled ⟨backend.addr, ?_⟩ _
      rw [choice_cons, undecided]
      rfl
  | none =>
      have own : scene.decision front tls (scene.client.take headEnd) =
          .answer (if requestPath (scene.client.take headEnd) = some "/healthz" then alive
            else notFound host) := by
        simp only [Scene.decision, named, stays, entry]
      simp only [Front.route, request]
      split
      · rename_i probed
        rw [if_pos probed] at own
        exact once_respond undecided complete own
      · rename_i other
        rw [if_neg other] at own
        exact once_respond undecided complete own

theorem once_demux (complete : findHeadEnd head = some headEnd)
    (undecided : Undecided scene head log) :
    Program.Under scene.cuts (AnswersOnce scene front tls) (front.demux tls head headEnd) log := by
  have within := (findHeadEnd_le complete).2
  obtain ⟨rest, whole⟩ := undecided.cut
  have request : head.take headEnd = scene.client.take headEnd := by
    rw [← whole, List.take_append_of_le_length within]
  have complete : findHeadEnd scene.client = some headEnd :=
    whole ▸ findHeadEnd_append rest complete
  dsimp only [Front.demux]
  rw [request]
  cases named : hostOf (scene.client.take headEnd) with
  | none =>
      refine once_respond undecided.made complete ?_
      rw [Scene.decision, named]
  | some host =>
      intro entry looked
      have same : entry = scene.table host := looked
      subst same
      simp only [Program.done_bind]
      refine (scene.under_redirects front tls _ _).bind ?_
      rintro redirected after ⟨same, past⟩
      have still : choice after = none := by
        rcases past with rfl | rfl
        · rw [choice_cons, undecided.made]
          rfl
        · rw [choice_cons, choice_cons, undecided.made]
          rfl
      cases goes : scene.redirected front tls (scene.client.take headEnd) with
      | some port =>
          rw [same, goes]
          refine once_respond still complete ?_
          simp only [Scene.decision, named, goes]
      | none =>
          rw [same, goes]
          exact once_route still complete request named goes

theorem once_turn (serving : Serving) (pending : Pending scene serving log) :
    Program.Under scene.cuts (AnswersOnce scene front tls) (front.turn tls serving) log := by
  cases serving with
  | splicing splice => exact under_of_dialled pending _
  | reading head =>
      rcases pending with dialled | undecided
      · exact under_of_dialled dialled _
      · intro answer promised
        have still : choice (⟨.read .client 2048, answer⟩ :: log) = none := by
          rw [choice_cons, undecided.made]
          rfl
        match answer with
        | .error error => exact fun response made => nomatch still.symm.trans made
        | .ok [] => exact fun response made => nomatch still.symm.trans made
        | .ok (b :: bytes) =>
            have more : Undecided scene (head ++ b :: bytes)
                (⟨.read .client 2048, .ok (b :: bytes)⟩ :: log) := by
              refine ⟨still, ?_, ?_⟩
              · rw [received_cons, undecided.whole]
                rfl
              · rw [← undecided.whole]
                exact promised.2.1
            simp only [Program.done_bind]
            cases found : findHeadEnd (head ++ b :: bytes) with
            | some headEnd => exact once_demux found more
            | none =>
                dsimp only
                split
                · exact fun response made => nomatch still.symm.trans made
                · exact .inr more

theorem answeredOnce_of_runs {program : Prog (Serving ⊕ Exit)}
    (run : Runs (front.turn tls) serveConn program log) (admitted : log.Admitted scene.cuts) :
    AnsweredOnce scene front tls log := by
  intro response made
  -- What was answered stays answered, so it shows at the end of the turn.
  obtain ⟨value, after, ended, admitted', suffix⟩ := run.ends_turn
    (fun op history cut => ⟨scene.answer history op, scene.answer_cuts op history cut⟩) admitted
  have started : Program.Under scene.cuts (AnswersOnce scene front tls) serveConn [] :=
    .inr ⟨rfl, rfl, List.nil_prefix⟩
  have turned := ended.under started (fun serving _ => once_turn serving) admitted'
  have made' := choice_of_suffix suffix made
  have once : AnsweredOnce scene front tls after := by
    cases value with
    | inr exit => exact turned
    | inl serving =>
        cases serving with
        | reading head =>
            rcases turned with ⟨addr, dials⟩ | undecided
            · cases dials.symm.trans made'
            · cases undecided.made.symm.trans made'
        | splicing splice =>
            obtain ⟨addr, dials⟩ := turned
            cases dials.symm.trans made'
  obtain ⟨written, decided⟩ := once response made'
  refine ⟨?_, decided⟩
  have part := clientWrites_of_suffix suffix
  rw [written] at part
  exact part.eq_of_length_le (List.length_pos_iff.mpr (clientWrites_of_answer made))

end

/-! ## One response -/

/-- What was written is one response. -/
def OneResponse (log : Log) : Prop :=
  ∃ response : HttpResponse, clientWrites log = [response.bytes]

/-- A redirect has no CR from the host and no NUL from the host or the target in it. -/
def Scene.CleanRedirect (scene : Scene) (front : Front) (tls : Bool) (request : List UInt8) : Prop :=
  ∀ port host, scene.redirected front tls request = some port → hostOf request = some host →
    '\r' ∉ host.toList ∧ '\x00' ∉ host.toList ∧
      '\x00' ∉ ((requestTarget request).getD "/").toList

theorem decision_isResponse_iff {scene : Scene} {front : Front} {tls : Bool}
    {request response : List UInt8} (decided : scene.decision front tls request = .answer response) :
    IsResponse response ↔ scene.CleanRedirect front tls request := by
  unfold Scene.CleanRedirect
  unfold Scene.decision at decided
  cases named : hostOf request with
  | none =>
      rw [named] at decided
      obtain rfl := Decision.answer.inj decided
      refine iff_of_true badRequest_isResponse ?_
      intro port host _ impossible
      cases impossible
  | some host =>
      rw [named] at decided
      cases goes : scene.redirected front tls request with
      | some port =>
          rw [goes] at decided
          obtain rfl := Decision.answer.inj decided
          obtain ⟨rest, slash, solid⟩ := target_solid request
          rw [redirectTo_isResponse_iff (newline_not_mem_hostOf named) slash solid]
          constructor
          · intro clean other host' _ same
            cases same
            exact clean
          · exact fun clean => clean port host rfl rfl
      | none =>
          rw [goes] at decided
          have own : IsResponse response := by
            dsimp only at decided
            split at decided
            · cases decided
            · obtain rfl := Decision.answer.inj decided
              split
              · exact alive_isResponse
              · exact notFound_isResponse host
          refine iff_of_true own ?_
          intro port host impossible
          cases impossible

/-- What the router answers itself is one response exactly if no redirect carries a CR or a NUL. -/
theorem oneResponse_iff (scene : Scene) (front : Front) (tls : Bool)
    (program : Prog (Serving ⊕ Exit)) (log : Log) (run : Runs (front.turn tls) serveConn program log)
    (admitted : log.Admitted scene.cuts)
    (answers : ∃ response, choice log = some (.answer response)) :
    OneResponse log ↔ ∃ headEnd, findHeadEnd scene.client = some headEnd ∧
      scene.CleanRedirect front tls (scene.client.take headEnd) := by
  obtain ⟨response, made⟩ := answers
  obtain ⟨written, headEnd, complete, decided⟩ := answeredOnce_of_runs run admitted response made
  have iff := decision_isResponse_iff decided
  constructor
  · rintro ⟨own, same⟩
    rw [written] at same
    exact ⟨headEnd, complete, iff.mp ⟨own, (List.cons.inj same).1.symm⟩⟩
  · rintro ⟨other, complete', clean⟩
    obtain rfl := Option.some.inj (complete.symm.trans complete')
    obtain ⟨own, same⟩ := iff.mpr clean
    exact ⟨own, by rw [written, same]⟩

/-- A listener that redirects plain clients. -/
def securedFront : Front where
  redirect := some 443
  nameError _ := none

/-- A request on a router with a certificate and no routes. -/
def requestScene (client : String) : Scene where
  client := bytesOf client
  backend := []
  table _ := none
  certs := 1

/-- The connection to its end. -/
def requestPlay (client : String) : Prog (Serving ⊕ Exit) × Log :=
  play (securedFront.turn false) (requestScene client).answer 8 serveConn []

theorem requestPlay_run (client : String) :
    Runs (securedFront.turn false) serveConn (requestPlay client).1 (requestPlay client).2 :=
  Runs.play _ 8 .start

theorem requestPlay_admitted (client : String) :
    (requestPlay client).2.Admitted (requestScene client).cuts :=
  play_admitted _ (fun op log cut => Scene.answer_cuts _ op log cut) 8 serveConn
    History.admitted_nil

theorem oneResponse_iff_redirect :
    OneResponse (requestPlay "GET /a?b=1 HTTP/1.1\r\nHost: app.test\r\n\r\n").2 := by
  refine (oneResponse_iff _ _ _ _ _ (requestPlay_run _) (requestPlay_admitted _) ?_).mpr ?_
  · exact ⟨redirectTo "app.test" 443 "/a?b=1", by decide +kernel⟩
  · refine ⟨39, by decide +kernel, ?_⟩
    intro port host _ named
    have same : hostOf ((requestScene "GET /a?b=1 HTTP/1.1\r\nHost: app.test\r\n\r\n").client.take 39) =
        some "app.test" := by decide +kernel
    obtain rfl := Option.some.inj (same.symm.trans named)
    exact ⟨by decide, by decide, by decide +kernel⟩

/-- A CR inside the host line ends up inside the location. -/
theorem redirect_with_cr : ¬ ∀ (scene : Scene) (front : Front) (tls : Bool)
    (program : Prog (Serving ⊕ Exit)) (log : Log), Runs (front.turn tls) serveConn program log →
      log.Admitted scene.cuts → (∃ response, choice log = some (.answer response)) →
        OneResponse log := by
  intro always
  have answered : choice (requestPlay "GET / HTTP/1.1\r\nHost: a\rX: b\r\n\r\n").2 =
      some (.answer (redirectTo "a\rx: b" 443 "/")) := by decide +kernel
  obtain ⟨response, same⟩ := always _ _ _ _ _ (requestPlay_run _) (requestPlay_admitted _)
    ⟨_, answered⟩
  have written : clientWrites (requestPlay "GET / HTTP/1.1\r\nHost: a\rX: b\r\n\r\n").2 =
      [redirectTo "a\rx: b" 443 "/"] := by decide +kernel
  rw [written] at same
  have clean := (@redirectTo_isResponse_iff "a\rx: b" "/" 443 [] (by decide) (by decide)
    (List.forall_mem_singleton.mpr (by decide))).mp ⟨response, (List.cons.inj same).1.symm⟩
  exact absurd clean.1 (by decide)

end StormLb.Router
