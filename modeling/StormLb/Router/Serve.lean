import StormLb.Router.Head
import StormLb.Router.Route

/-!
# One connection

`serve_conn` as a program over the client's stream, the shared table and
connector, and the streams to the backend: it reads a request head, demuxes on
its host, and copies both ways, the two halves moving in any order.
-/

namespace StormLb.Router

open StormLb.Effects StormLb.Text

/-! ## What a connection asks for -/

/-- A connector for TLS backends: the certificates it trusts. -/
structure Connector where
  roots : List (List UInt8)
  deriving DecidableEq, Repr

/-- The client, the dialled backend, or what a connector returned for a name. -/
inductive Stream where
  | client
  | tcp
  | tls (connector : Connector) (name : String)
  deriving DecidableEq, Repr

/-- How a handshake ended. -/
inductive Handshake where
  | connected
  | failed (error : String)
  | timedOut
  deriving DecidableEq, Repr

/-- The half of the copying that moves next. -/
inductive Half where
  | up
  | down
  deriving DecidableEq, Repr

inductive Op where
  | read (stream : Stream) (size : Nat)
  | writeAll (stream : Stream) (bytes : List UInt8)
  | shutdown (stream : Stream)
  /-- `table.get(host)` -/
  | lookup (host : String)
  /-- `certs.count()` -/
  | certCount
  | connect (addr : String)
  /-- The connector now, if the CA file ever loaded. -/
  | upstream
  /-- The TLS handshake over the dialled connection. -/
  | handshake (connector : Connector) (name : String)
  | inc (name : String) (labels : List (String × String))
  | observe (name : String) (labels : List (String × String))
  | choose
  deriving DecidableEq, Repr

/-- The answers; of a write or a dial, the error there was. -/
abbrev Op.Ans : Op → Type
  | .read .. => Except String (List UInt8)
  | .writeAll .. => Option String
  | .shutdown _ => Unit
  | .lookup _ => Option Backend
  | .certCount => Nat
  | .connect _ => Option String
  | .upstream => Option Connector
  | .handshake .. => Handshake
  | .inc .. => Unit
  | .observe .. => Unit
  | .choose => Half

abbrev Prog := Program Op Op.Ans

abbrev Log := History Op Op.Ans

def ask (op : Op) : Prog op.Ans :=
  .call op .done

@[simp] theorem ask_eq (op : Op) : ask op = .call op .done :=
  rfl

/-- What a listener serves with. -/
structure Front where
  /-- The https port plain clients are sent to. -/
  redirect : Option UInt16
  /-- `ServerName::try_from`: the error there is. -/
  nameError : String → Option String

/-- Why a connection ended with an error. -/
inductive ServeError where
  | io (error : String)
  | headTooLong
  | connect (addr host error : String)
  | noConnector (addr host : String)
  | badName (name host error : String)
  | tls (addr name host error : String)
  | tlsTimedOut (addr name host : String)
  deriving DecidableEq, Repr

def ServeError.display (debug : String → String) : ServeError → String
  | .io error => error
  | .headTooLong => "request head exceeded 16KiB without terminating"
  | .connect addr host error => s!"backend {addr} for {host}: {error}"
  | .noConnector addr host =>
      s!"backend {addr} for {host} is https, but no [router] backend_ca_file is loaded"
  | .badName name host error => s!"backend name {debug name} for {host}: {error}"
  | .tls addr name host error => s!"TLS to backend {addr} ({name}) for {host}: {error}"
  | .tlsTimedOut addr name host =>
      s!"TLS to backend {addr} ({name}) for {host}: handshake timed out"

abbrev Exit := Except ServeError Unit

/-! ## Copying both ways -/

/-- The half from the client to the backend. -/
inductive Up where
  | reading
  | writing (bytes : List UInt8)
  | closing (result : Except String Unit)
  | done (result : Except String Unit)
  deriving Repr

/-- The half from the backend to the client. -/
inductive Down where
  | first
  | reading
  | writing (bytes : List UInt8)
  | closing
  | done (result : Except String Unit)
  deriving Repr

structure Splice where
  host : String
  upstream : Stream
  up : Up
  down : Down

/-- The buffer of `tokio::io::copy`. -/
def copyBuffer : Nat :=
  8 * 1024

def stepUp (upstream : Stream) : Up → Prog Up
  | .reading => do
      match ← ask (.read .client copyBuffer) with
      | .error error => return .closing (.error error)
      | .ok [] => return .closing (.ok ())
      | .ok bytes => return .writing bytes
  | .writing bytes => do
      match ← ask (.writeAll upstream bytes) with
      | some error => return .closing (.error error)
      | none => return .reading
  | .closing result => do
      let _ ← ask (.shutdown upstream)
      return .done result
  | .done result => return .done result

/-- Record a proxied request by the backend's first bytes, or that it sent none. -/
def recordFirst (host : String) (first : Option (List UInt8)) : Prog Unit :=
  match first with
  | some bytes => do
      let _ ← ask (.observe "stormlb_router_request_duration_seconds" [("host", host)])
      ask (.inc "stormlb_router_requests_total"
        [("host", host), ("code", (statusCode bytes).getD "other")])
  | none => do
      let _ ← ask (.inc "stormlb_router_upstream_errors_total"
        [("host", host), ("kind", "no_response")])
      ask (.inc "stormlb_router_requests_total" [("host", host), ("code", "error")])

def stepDown (host : String) (upstream : Stream) : Down → Prog Down
  | .first => do
      match ← ask (.read upstream (16 * 1024)) with
      | .error error =>
          let _ ← recordFirst host none
          return .done (.error error)
      | .ok [] =>
          let _ ← recordFirst host none
          return .closing
      | .ok bytes =>
          let _ ← recordFirst host (some bytes)
          return .writing bytes
  | .reading => do
      match ← ask (.read upstream copyBuffer) with
      | .error error => return .done (.error error)
      | .ok [] => return .closing
      | .ok bytes => return .writing bytes
  | .writing bytes => do
      match ← ask (.writeAll .client bytes) with
      | some error => return .done (.error error)
      | none => return .reading
  | .closing => do
      let _ ← ask (.shutdown .client)
      return .done (.ok ())
  | .done result => return .done result

/-- Where a connection is between two turns of its loops. -/
inductive Serving where
  | reading (head : List UInt8)
  | splicing (splice : Splice)

def Splice.moveUp (s : Splice) : Prog (Serving ⊕ Exit) := do
  let up ← stepUp s.upstream s.up
  return .inl (.splicing { s with up })

def Splice.moveDown (s : Splice) : Prog (Serving ⊕ Exit) := do
  let down ← stepDown s.host s.upstream s.down
  return .inl (.splicing { s with down })

/-- One step of one half; the backend's error comes first when both are done. -/
def Splice.turn (s : Splice) : Prog (Serving ⊕ Exit) :=
  match s.up, s.down with
  | .done up, .done down => return .inr ((down.bind fun _ => up).mapError .io)
  | .done _, _ => s.moveDown
  | _, .done _ => s.moveUp
  | _, _ => do
      match ← ask .choose with
      | .up => s.moveUp
      | .down => s.moveDown

/-! ## Demultiplexing -/

/-- Answer the client and end. -/
def respond (host code : String) (response : List UInt8) : Prog (Serving ⊕ Exit) := do
  let _ ← ask (.inc "stormlb_router_requests_total" [("host", host), ("code", code)])
  let _ ← ask (.writeAll .client response)
  return .inr (.ok ())

def badRequest : List UInt8 :=
  bytesOf "HTTP/1.1 400 Bad Request\r\ncontent-length: 26\r\nconnection: close\r\n\r\nthis router needs a Host\n\n"

/-- An answer in plain text, with its length. -/
def textResponse (status body : String) : List UInt8 :=
  bytesOf s!"HTTP/1.1 {status}\r\ncontent-type: text/plain\r\ncontent-length: {(bytesOf body).length}\r\nconnection: close\r\n\r\n{body}"

def alive : List UInt8 :=
  textResponse "200 OK" "router alive\n"

def notFound (host : String) : List UInt8 :=
  textResponse "404 Not Found" s!"no route for host {host}\n"

def redirectTo (host : String) (port : UInt16) (target : String) : List UInt8 :=
  let port := if port = 443 then "" else s!":{port.toNat}"
  bytesOf s!"HTTP/1.1 308 Permanent Redirect\r\nlocation: https://{host}{port}{target}\r\ncontent-length: 0\r\nconnection: close\r\n\r\n"

/-- Count a request whose backend was not reached, and end. -/
def failUpstream (host kind : String) (error : ServeError) : Prog (Serving ⊕ Exit) := do
  let _ ← ask (.inc "stormlb_router_upstream_errors_total" [("host", host), ("kind", kind)])
  let _ ← ask (.inc "stormlb_router_requests_total" [("host", host), ("code", "error")])
  return .inr (.error error)

/-- Send the head to the backend, then splice. -/
def forward (upstream : Stream) (head : List UInt8) (host : String) : Prog (Serving ⊕ Exit) := do
  match ← ask (.writeAll upstream head) with
  | some error => return .inr (.error (.io error))
  | none => return .inl (.splicing { host, upstream, up := .reading, down := .first })

namespace Front

variable (front : Front)

/-- TLS to the backend, verified against the CA, or nothing at all. -/
def forwardTls (head : List UInt8) (host addr name : String) : Prog (Serving ⊕ Exit) := do
  match ← ask .upstream with
  | none => failUpstream host "tls" (.noConnector addr host)
  | some connector =>
      match front.nameError name with
      | some error => return .inr (.error (.badName name host error))
      | none =>
          match ← ask (.handshake connector name) with
          | .connected => forward (.tls connector name) head host
          | .failed error => failUpstream host "tls" (.tls addr name host error)
          | .timedOut => failUpstream host "tls" (.tlsTimedOut addr name host)

/-- Dial the route's backend and forward the request to it. -/
def dial (tls : Bool) (head : List UInt8) (headEnd : Nat) (host : String) (backend : Backend) :
    Prog (Serving ⊕ Exit) := do
  match ← ask (.connect backend.addr) with
  | some error => failUpstream host "connect" (.connect backend.addr host error)
  | none =>
      let head := if tls then forwardedHttps head headEnd else head
      match backend.tls with
      | none => forward .tcp head host
      | some name => front.forwardTls head host backend.addr name

/-- The port of the redirect, when this request is redirected. -/
def redirects (tls : Bool) (head : List UInt8) : Prog (Option UInt16) := do
  match front.redirect with
  | none => return none
  | some port =>
      if tls then return none
      else
        let count ← ask .certCount
        if 0 < count ∧ requestPath head ≠ some "/healthz" then return some port else return none

/-- The request goes to its backend, or is answered for want of one. -/
def route (tls : Bool) (head : List UInt8) (headEnd : Nat) (host : String) :
    Option Backend → Prog (Serving ⊕ Exit)
  | some backend => front.dial tls head headEnd host backend
  | none =>
      if requestPath (head.take headEnd) = some "/healthz" then respond "unrouted" "200" alive
      else respond "unrouted" "404" (notFound host)

/-- The head is complete. -/
def demux (tls : Bool) (head : List UInt8) (headEnd : Nat) : Prog (Serving ⊕ Exit) := do
  let request := head.take headEnd
  match hostOf request with
  | none => respond "unrouted" "400" badRequest
  | some host =>
      let backend ← ask (.lookup host)
      -- Only a route's hostname is a label, never a client's arbitrary Host.
      let label := if backend.isSome then host else "unrouted"
      match ← front.redirects tls request with
      | some port => respond label "308" (redirectTo host port ((requestTarget request).getD "/"))
      | none => front.route tls head headEnd host backend

/-- One turn of `serve_conn`. -/
def turn (tls : Bool) : Serving → Prog (Serving ⊕ Exit)
  | .reading head => do
      match ← ask (.read .client 2048) with
      | .error error => return .inr (.error (.io error))
      | .ok [] => return .inr (.ok ())
      | .ok bytes =>
          let head := head ++ bytes
          match findHeadEnd head with
          | some headEnd => front.demux tls head headEnd
          | none =>
              if 16 * 1024 < head.length then return .inr (.error .headTooLong)
              else return .inl (.reading head)
  | .splicing splice => splice.turn

end Front

/-- Read one request head, demux on Host, splice. -/
def serveConn : Prog (Serving ⊕ Exit) :=
  .done (.inl (.reading []))

end StormLb.Router
