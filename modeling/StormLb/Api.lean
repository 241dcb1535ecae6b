import StormLb.Effects.Program
import StormLb.Text.Str
import StormLb.Vips.View

/-!
# The VIP API

How one request is answered.  What is asked of the registry are operations; the
token file and the reading of a body come from outside.
-/

namespace StormLb.Api

open StormLb.Text StormLb.Effects StormLb.Vips

structure Request where
  method : String
  path : String
  authorization : Option String
  body : List UInt8
  deriving DecidableEq, Repr

/-- What the file system and the libraries answer while a request is handled. -/
structure Outside where
  readToString : String → Except String String
  /-- `serde_json::from_slice` of a spec. -/
  fromSlice : List UInt8 → Except String VipSpec
  /-- A string as `{:?}` writes it. -/
  debug : String → String

/-- What is asked of the registry. -/
inductive Op where
  | list
  | get (name : String)
  | apply (name : String) (spec : VipSpec)
  | remove (name : String)

abbrev Op.Ans : Op → Type
  | .list => List VipView
  | .get _ => Option VipView
  | .apply .. => Except ApplyError Bool
  | .remove _ => Except ApplyError Unit

/-- A status and a body; nothing when the thread panics. -/
abbrev Reply := Option (UInt16 × Json)

abbrev Prog := Program Op Op.Ans

abbrev Log := History Op Op.Ans

def perform (op : Op) : Prog op.Ans :=
  .call op .done

@[simp] theorem perform_eq (op : Op) : perform op = .call op .done :=
  rfl

def reply (status : UInt16) (body : Json) : Prog Reply :=
  .done (some (status, body))

/-- A reply that says what is wrong. -/
def refuse (status : UInt16) (message : String) : Prog Reply :=
  reply status (.object [("error", .string message)])

def methodNotAllowed : Prog Reply :=
  refuse 405 "method not allowed"

def noSuchPath (path : List Char) : Prog Reply :=
  refuse 404 s!"no such path {String.ofList path}"

def errorStatus : ApplyError → UInt16
  | .invalid _ => 400
  | .notFound _ => 404
  | .conflict _ => 409
  | .notSaved .. => 500

def error (outside : Outside) (e : ApplyError) : Prog Reply :=
  refuse (errorStatus e) (e.display outside.debug)

/-- A comparison whose time does not depend on where the texts differ. -/
def sameBytes (got want : List UInt8) : Bool :=
  got.length = want.length ∧
    (got.zip want).foldl (fun different (x, y) => different ||| (x ^^^ y)) 0 = 0

/-- Whether the request carries the token of the file. -/
def authorize (outside : Outside) (tokenFile : String) (header : Option String) :
    Except (UInt16 × String) Unit :=
  match outside.readToString tokenFile with
  | .error _ => .error (500, "the API's token file cannot be read")
  | .ok text =>
      let want := trim text.toList
      if want = [] then .error (500, "the API's token file is empty")
      else
        let got := ((header.bind fun h => stripPrefix "Bearer ".toList h.toList).map trim).getD []
        if sameBytes (utf8 got) (utf8 want) then .ok ()
        else .error (401, "missing or wrong bearer token")

/-- What every request under `/api/v1` must carry, where a token is configured. -/
def authorized (outside : Outside) (tokenFile : Option String) (header : Option String) :
    Except (UInt16 × String) Unit :=
  match tokenFile with
  | none => .ok ()
  | some file => authorize outside file header

/-- A request for the VIP of this name. -/
def handleVip (outside : Outside) (name : String) (req : Request) : Prog Reply :=
  match req.method with
  | "GET" => do
      match ← perform (.get name) with
      | some v => reply 200 v.toJson
      | none => refuse 404 s!"no VIP {name}"
  | "PUT" =>
      match outside.fromSlice req.body with
      | .error e => refuse 400 s!"body: {e}"
      | .ok spec => do
          match ← perform (.apply name spec) with
          | .ok created =>
              let shown ← perform (.get name)
              reply (if created then 201 else 200) ((shown.map VipView.toJson).getD .null)
          | .error e => error outside e
  | "DELETE" => do
      match ← perform (.remove name) with
      | .ok () => reply 200 (.object [("deleted", .string name)])
      | .error e => error outside e
  | _ => methodNotAllowed

/-- The path of a request, without its query. -/
def Request.pathOnly (req : Request) : List Char :=
  req.path.toList.takeWhile (· ≠ '?')

def vipsPath : List Char :=
  "/api/v1/vips".toList

/-- Answer one request. -/
def handle (outside : Outside) (tokenFile : Option String) (req : Request) : Prog Reply :=
  let path := req.pathOnly
  if path = "/healthz".toList then
    if req.method = "GET" then reply 200 (.object [("status", .string "ok")]) else methodNotAllowed
  else
    match stripPrefix vipsPath path with
    | none => noSuchPath path
    | some rest =>
        match authorized outside tokenFile req.authorization with
        | .error (status, message) => refuse status message
        | .ok () =>
            if rest = [] ∨ rest = ['/'] then
              if req.method = "GET" then do
                let vips ← perform .list
                reply 200 (.object [("vips", .array (vips.map VipView.toJson))])
              else methodNotAllowed
            else
              -- The first byte is taken for the slash.
              match sliceFrom 1 rest with
              | none => .done none
              | some name =>
                  if '/' ∈ name ∨ name = [] then noSuchPath path
                  else handleVip outside (String.ofList name) req

end StormLb.Api
