import StormLb.Bgp.Message
import StormLb.Effects.Threads

/-!
# One BGP session

`session` as a program over the socket, the clock and the health watch.  The
watch is shared: its sender may change the value between any two steps.
-/

namespace StormLb.Bgp

open StormLb.Net StormLb.Effects

/-! ## What a session asks for -/

/-- A moment, or a span of time, in nanoseconds. -/
abbrev Instant := Nat

def secs (n : Nat) : Instant :=
  n * 1000000000

/-- How long to wait for the peer's OPEN. -/
def openWait : Instant :=
  secs 240

/-- The end of a `select!` over a ticker without keepalives, and of a hold timer of 0. -/
def far : Instant :=
  secs (365 * 24 * 3600)

/-- The next message of the peer, or that the reader ended. -/
inductive Next where
  | message (type : UInt8) (body : List UInt8)
  | failed (error : String)
  deriving DecidableEq, Repr

/-- How connecting ended. -/
inductive Connected where
  | connected
  | failed (error : String)
  | timedOut
  deriving DecidableEq, Repr

/-- The branch that `select!` took. -/
inductive Ready where
  | ticked
  | holdExpired
  | changed
  | senderGone
  | next (next : Next)
  deriving DecidableEq, Repr

inductive Op where
  | connect (ip : Ipv4Addr) (port : UInt16)
  | write (message : Message)
  /-- `timeout(wait, next(rx))`; `none` when the time ran out. -/
  | nextWithin (wait : Instant)
  /-- The first tick of a ticker with this period. -/
  | firstTick (period : Instant)
  | now
  | markChanged
  | select (holdDeadline : Instant)
  | borrowAndUpdate
  deriving DecidableEq, Repr

/-- The answers; of a write, the error there was. -/
abbrev Op.Ans : Op → Type
  | .connect .. => Connected
  | .write _ => Option String
  | .nextWithin _ => Option Next
  | .firstTick _ => Unit
  | .now => Instant
  | .markChanged => Unit
  | .select _ => Ready
  | .borrowAndUpdate => Bool

abbrev Prog := Program Op Op.Ans

abbrev Log := History Op Op.Ans

/-- A session ends with the reason. -/
abbrev Exit := String

/-- The loop's variables once the session is Established. -/
structure Established where
  hold : UInt16
  holdDeadline : Instant
  announced : Bool
  deriving DecidableEq, Repr

structure Peer where
  ip : Ipv4Addr
  port : UInt16
  asn : UInt32
  deriving DecidableEq, Repr

/-- What a session is run with. -/
structure Speaker where
  peer : Peer
  localAsn : UInt32
  bgpId : Ipv4Addr
  nextHop : Ipv4Addr
  vip : Ipv4Addr
  deriving DecidableEq, Repr

def ask (op : Op) : Prog op.Ans :=
  .call op .done

@[simp] theorem ask_eq (op : Op) : ask op = .call op .done :=
  rfl

/-- `{:?}` of the first two bytes, if there are two. -/
def debugCode : List UInt8 → String
  | code :: sub :: _ => s!"Some([{code.toNat}, {sub.toNat}])"
  | _ => "None"

/-! ## The session -/

/-- Write a message; a failed write ends the session. -/
def writeOr (m : Message) (rest : Prog (Established ⊕ Exit)) : Prog (Established ⊕ Exit) := do
  match ← ask (.write m) with
  | some error => return .inr error
  | none => rest

/-- Send a NOTIFICATION and fail with `why`. -/
def notify (code sub : UInt8) (why : String) : Prog (Established ⊕ Exit) := do
  let _ ← ask (.write (.notification code sub))
  return .inr why

namespace Speaker

/-- OpenConfirm: the peer's KEEPALIVE makes the session Established. -/
def openConfirm (hold : UInt16) : Prog (Established ⊕ Exit) := do
  let wait := if hold = 0 then openWait else secs hold.toNat
  match ← ask (.nextWithin wait) with
  | none => notify errHoldExpired 0 "no KEEPALIVE after OPEN"
  | some (.failed error) => return .inr error
  | some (.message t body) =>
      if t = typeKeepalive then
        let _ ← ask (.firstTick (if hold = 0 then far else secs hold.toNat / 3))
        let now ← ask .now
        let holdDeadline := now + if hold = 0 then far else secs hold.toNat
        -- Announce at once if healthy now; from here on, on every change.
        let _ ← ask .markChanged
        return .inl { hold, holdDeadline, announced := false }
      else if t = typeNotification then
        return .inr s!"peer sent NOTIFICATION {debugCode body}"
      else notify errFsm 0 s!"message type {t.toNat} in OpenConfirm"

/-- OpenSent: the peer's OPEN. -/
def openSent (s : Speaker) : Prog (Established ⊕ Exit) := do
  match ← ask (.nextWithin openWait) with
  | none => notify errHoldExpired 0 "no OPEN from the peer"
  | some (.failed error) => return .inr error
  | some (.message t body) =>
      if t = typeOpen then
        match checkOpen body s.peer.asn with
        | .error refusal =>
            notify refusal.code refusal.sub s!"refused the peer's OPEN: {refusal.why}"
        | .ok peerHold => writeOr .keepalive (openConfirm (min holdTime peerHold))
      else if t = typeNotification then
        return .inr s!"peer sent NOTIFICATION {debugCode body} instead of OPEN"
      else notify errFsm 0 s!"message type {t.toNat} before OPEN"

/-- The head of `session`, up to the loop. -/
def start (s : Speaker) : Prog (Established ⊕ Exit) := do
  match ← ask (.connect s.peer.ip s.peer.port) with
  | .timedOut => return .inr s!"connecting to {s.peer.ip.display}:{s.peer.port.toNat} timed out"
  | .failed error =>
      return .inr s!"connecting to BGP peer {s.peer.ip.display}:{s.peer.port.toNat}: {error}"
  | .connected => writeOr (.opening s.localAsn.toUInt16 holdTime s.bgpId) s.openSent

/-- The health state changed, or the session just became Established. -/
def onChanged (s : Speaker) (e : Established) : Prog (Established ⊕ Exit) := do
  let want ← ask .borrowAndUpdate
  if want = true ∧ e.announced = false then
    writeOr (.announce s.localAsn.toUInt16 s.nextHop s.vip 32)
      (return .inl { e with announced := true })
  else if want = false ∧ e.announced = true then
    writeOr (.withdraw s.vip 32) (return .inl { e with announced := false })
  else return .inl e

/-- What a message of the peer does by its type. -/
def onType (e : Established) (t : UInt8) (body : List UInt8) : Prog (Established ⊕ Exit) :=
  if t = typeKeepalive ∨ t = typeUpdate then return .inl e
  else if t = typeNotification then return .inr s!"peer sent NOTIFICATION {debugCode body}"
  else if t = typeOpen then notify errFsm 0 "OPEN while Established"
  else notify errHeader 3 s!"message type {t.toNat}"

/-- A message of the peer restarts the hold timer. -/
def onMessage (e : Established) (t : UInt8) (body : List UInt8) : Prog (Established ⊕ Exit) := do
  if e.hold = 0 then onType e t body
  else
    let now ← ask .now
    onType { e with holdDeadline := now + secs e.hold.toNat } t body

/-- One turn of the loop. -/
def turn (s : Speaker) (e : Established) : Prog (Established ⊕ Exit) := do
  match ← ask (.select e.holdDeadline) with
  | .ticked => writeOr .keepalive (return .inl e)
  | .holdExpired =>
      notify errHoldExpired 0 s!"nothing from the peer for {e.hold.toNat} s (hold timer)"
  | .senderGone => return .inr "health state gone: channel closed"
  | .changed => s.onChanged e
  | .next (.failed error) => return .inr error
  | .next (.message t body) => onMessage e t body

end Speaker

/-! ## The health watch -/

/-- The watched value, and whether the receiver has a change it has not seen. -/
structure Watch where
  value : Bool
  unseen : Bool
  deriving DecidableEq, Repr

/-- What a step may be answered: `changed` only returns on an unseen change, and sees it. -/
def Watch.serve (watch : Watch) (op : Op) (answer : op.Ans) : Option Watch :=
  match op, answer with
  | .markChanged, _ => some { watch with unseen := true }
  | .select _, .changed => if watch.unseen then some { watch with unseen := false } else none
  | .borrowAndUpdate, value =>
      if value = watch.value then some { watch with unseen := false } else none
  | _, _ => some watch

/-- The session and its watch; the sender may send any value at any time. -/
def Speaker.threads (s : Speaker) : Threads Unit Op Op.Ans Established Exit Watch where
  first _ := s.start
  body _ := s.turn
  serves _ := Watch.serve
  drifts _ after := ∃ value, after = { value, unseen := true }

end StormLb.Bgp
