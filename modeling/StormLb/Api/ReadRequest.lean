import Mathlib.Algebra.Group.Nat.Defs
import StormLb.Api
import StormLb.Net.Segments
import StormLb.Router.Head

/-!
# Reading a request

`read_request` reads until the blank line was seen, then as many bytes as the
head announces.  The limit on the head is checked between reads, before the head
is looked at once more.
-/

namespace StormLb.Api

open StormLb.Net StormLb.Text

/-- The most a request head may be. -/
def maxHead : Nat := 16 * 1024

/-- The most a request body may be. -/
def maxBody : Nat := 1024 * 1024

/-- A status and what is wrong. -/
abbrev Failure := UInt16 × String

/-! ## The head -/

/-- The head's end in what was read so far, which is read on while it is within the limit. -/
def readHead (buf : List UInt8) (s : Segments UInt8) :
    Except Failure (List UInt8 × Nat × Segments UInt8) :=
  match Router.findHeadEnd buf with
  | some headEnd => .ok (buf, headEnd, s)
  | none =>
      if _ : maxHead < buf.length then .error (431, s!"request head over {maxHead} bytes")
      else
        if _ : (s.read 4096).1.length = 0 then
          .error (400, "connection closed before the request head ended")
        else readHead (buf ++ (s.read 4096).1) (s.read 4096).2
termination_by maxHead + 1 - buf.length
decreasing_by
  rw [List.length_append]
  omega

/-- `split("\r\n")` -/
def splitCrlf : List Char → List (List Char)
  | '\r' :: '\n' :: rest => [] :: splitCrlf rest
  | c :: rest =>
      match splitCrlf rest with
      | line :: more => (c :: line) :: more
      | [] => [[c]]
  | [] => [[]]

/-- `parse::<usize>` on a machine of 64 bits. -/
def parseUsize (text : List Char) : Option Nat :=
  let digits := (stripPrefix ['+'] text).getD text
  if digits = [] ∨ digits.all Char.isDigit = false then none
  else
    let n := digits.foldl (fun n c => 10 * n + (c.toNat - '0'.toNat)) 0
    if n < 2 ^ 64 then some n else none

/-- What the lines after the first announce: the body's length and the authorization. -/
def readLines (debug : String → String) :
    Nat × Option String → List (List Char) → Except Failure (Nat × Option String)
  | announced, [] => .ok announced
  | (length, authorization), l :: rest =>
      match splitOnce ':' l with
      | none => readLines debug (length, authorization) rest
      | some (k, v) =>
          let v := trim v
          if eqIgnoreAsciiCase k "content-length".toList then
            match parseUsize v with
            | some length => readLines debug (length, authorization) rest
            | none => .error (400, s!"content-length {debug (String.ofList v)}")
          else if eqIgnoreAsciiCase k "authorization".toList then
            readLines debug (length, some (String.ofList v)) rest
          else if eqIgnoreAsciiCase k "transfer-encoding".toList then
            .error (411, "send a content-length, not chunked")
          else readLines debug (length, authorization) rest

/-- What a head says. -/
structure Announced where
  method : String
  path : String
  authorization : Option String
  length : Nat
  deriving DecidableEq, Repr

/-- Parse a head; `debug` writes a string as `{:?}` does. -/
def parseHead (debug : String → String) (head : List UInt8) : Except Failure Announced :=
  match fromUtf8 head with
  | none => .error (400, "request head is not UTF-8")
  | some text =>
      let lines := splitCrlf text
      match (lines.head?.getD []).splitOn ' ' with
      | method :: path :: _ =>
          if method = [] then .error (400, "no request line")
          else
            match readLines debug (0, none) lines.tail with
            | .error failure => .error failure
            | .ok (length, authorization) =>
                if maxBody < length then .error (413, s!"body over {maxBody} bytes")
                else .ok { method := String.ofList method, path := String.ofList path,
                           authorization, length }
      | _ => .error (400, "no request line")

/-! ## The body -/

/-- The body, which is read on until it has the length. -/
def readBody (length : Nat) (body : List UInt8) (s : Segments UInt8) :
    Except Failure (List UInt8) :=
  if _ : body.length < length then
    if _ : (s.read 4096).1.length = 0 then
      .error (400, "connection closed before the body ended")
    else readBody length (body ++ (s.read 4096).1) (s.read 4096).2
  else .ok (body.take length)
termination_by length - body.length
decreasing_by
  rw [List.length_append]
  omega

def readRequest (debug : String → String) (s : Segments UInt8) : Except Failure Request := do
  let (buf, headEnd, s) ← readHead [] s
  let announced ← parseHead debug (buf.take headEnd)
  let body ← readBody announced.length (buf.drop headEnd) s
  return { method := announced.method, path := announced.path,
           authorization := announced.authorization, body }

end StormLb.Api
