import StormLb.Effects.Program
import StormLb.Vrrp.Advertisement
import StormLb.Vrrp.Router

/-!
# The VRRP control loop

`run_loop` as a program: what it asks of the kernel, the clock, the health
answer, the controller and its handle are operations, and each call inside the
loop shows the local variables at that moment.  `run` is the loop followed by
marking the handle stopped.
-/

namespace StormLb.Vrrp

open StormLb.Net StormLb.Effects

/-- One VRRP instance's settings. -/
structure Params where
  vrid : UInt8
  priority : UInt8
  preempt : Bool
  advertIntervalSecs : UInt64
  iface : String
  vip : Ipv4Addr
  deriving DecidableEq, Repr

/-- A moment, or a span of time, in nanoseconds. -/
abbrev Instant := Nat

def millis (n : Nat) : Instant :=
  n * 1000000

/-- `Duration::from_millis(c * 10)`. -/
def centis (c : UInt32) : Instant :=
  millis (c.toNat * 10)

/-- What `recv_from` returns: a datagram, a timeout (`WouldBlock` or `TimedOut`), or an error. -/
inductive Recv where
  | datagram (data : List UInt8)
  | timedOut
  | failed
  deriving DecidableEq, Repr

inductive Op where
  | interfaceIpv4 (iface : String)
  /-- The raw socket: created, set up for multicast and joined to the group. -/
  | openSocket (ifaceIp : Ipv4Addr)
  | healthy
  | now
  | claim (vip iface : String)
  | release (vip iface : String)
  | sendTo (packet : List UInt8)
  /-- `handle.stop.load`. -/
  | stopLoad
  /-- `handle.set`. -/
  | handleSet (state : State)
  | setReadTimeout (timeout : Instant)
  | recvFrom
  deriving DecidableEq, Repr

/-- The answers; of a fallible operation, `true` is `Ok`. -/
abbrev Op.Ans : Op → Type
  | .interfaceIpv4 _ => Option Ipv4Addr
  | .openSocket _ => Bool
  | .healthy => Bool
  | .now => Instant
  | .claim .. => Bool
  | .release .. => Bool
  | .sendTo _ => Bool
  | .stopLoad => Bool
  | .handleSet _ => Unit
  | .setReadTimeout _ => Bool
  | .recvFrom => Recv

/-- The local variables of the loop. -/
structure Locals where
  ifaceIp : Ipv4Addr
  vr : VirtualRouter
  nextAdvert : Instant
  masterDownDeadline : Instant
  deriving DecidableEq, Repr

/-- An operation, with the loop's local variables when there are some. -/
structure Call where
  locals : Option Locals
  op : Op
  deriving DecidableEq, Repr

abbrev Call.Ans (call : Call) : Type :=
  call.op.Ans

abbrev Prog := Program Call Call.Ans

abbrev Log := History Call Call.Ans

/-- Where an error ended the loop. -/
inductive Failure where
  | interfaceIpv4
  | socket
  | setReadTimeout
  | recv
  deriving DecidableEq, Repr

abbrev Exit := Except Failure Unit

/-- An operation outside the loop. -/
def outside (op : Op) : Prog op.Ans :=
  .call ⟨none, op⟩ .done

/-- An operation of the loop. -/
def Locals.perform (l : Locals) (op : Op) : Prog op.Ans :=
  .call ⟨some l, op⟩ .done

@[simp] theorem outside_eq (op : Op) : outside op = .call ⟨none, op⟩ .done :=
  rfl

@[simp] theorem Locals.perform_eq (l : Locals) (op : Op) :
    l.perform op = .call ⟨some l, op⟩ .done :=
  rfl

namespace Params

def router (p : Params) : VirtualRouter :=
  VirtualRouter.new p.vrid p.priority p.preempt p.advertIntervalSecs

/-- The packet that `send(priority)` puts on the wire. -/
def packet (p : Params) (l : Locals) (priority : UInt8) : List UInt8 :=
  encodeAdvertisement p.vrid priority p.router.advertIntervalCentis [p.vip] l.ifaceIp

def send (p : Params) (l : Locals) (priority : UInt8) : Prog Bool :=
  l.perform (.sendTo (p.packet l priority))

def claim (p : Params) (l : Locals) : Prog Bool :=
  l.perform (.claim p.vip.display p.iface)

def release (p : Params) (l : Locals) : Prog Bool :=
  l.perform (.release p.vip.display p.iface)

/-- The head of `run_loop`, up to the loop. -/
def startLoop (p : Params) : Prog (Locals ⊕ Exit) := do
  match ← outside (.interfaceIpv4 p.iface) with
  | none => return .inr (.error .interfaceIpv4)
  | some ifaceIp =>
      if ← outside (.openSocket ifaceIp) then
        let vr := p.router.start (← outside .healthy)
        let _ ← outside (.handleSet vr.state)
        let nextAdvert ← outside .now
        let now ← outside .now
        let l : Locals :=
          { ifaceIp, vr, nextAdvert, masterDownDeadline := now + centis vr.masterDownIntervalCentis }
        if vr.state = .master then
          let _ ← p.claim l
          return .inl l
        else return .inl l
      else return .inr (.error .socket)

/-- The stop flag is up: a Master resigns and releases. -/
def stopped (p : Params) (l : Locals) : Prog (Locals ⊕ Exit) := do
  if l.vr.state = .master then
    let _ ← p.send l 0
    let _ ← p.release l
    return .inr (.ok ())
  else return .inr (.ok ())

/-- A Master with no healthy backend resigns and releases. -/
def checkHealth (p : Params) (l : Locals) : Prog Locals := do
  let (resigns, vr) := l.vr.onHealth (← l.perform .healthy)
  let l := { l with vr }
  if resigns then
    let _ ← p.send l 0
    let _ ← p.release l
    let now ← l.perform .now
    return { l with masterDownDeadline := now + centis vr.masterDownIntervalCentis }
  else return l

/-- A datagram arrived. -/
def onDatagram (p : Params) (l : Locals) (data : List UInt8) : Prog (Locals ⊕ Exit) := do
  match parseAdvertisement data p.vrid with
  | none => return .inl l
  | some a =>
      if a.src = l.ifaceIp then return .inl l
      else
        let (action, vr) := l.vr.onAdvertisement a.priority a.src l.ifaceIp a.intervalCentis
        let l := { l with vr }
        match action with
        | .ignore => return .inl l
        | .resetTimer c =>
            let now ← l.perform .now
            return .inl { l with masterDownDeadline := now + centis c }
        | .advertiseNow =>
            let now ← l.perform .now
            return .inl { l with nextAdvert := now }
        | .demoted c =>
            let _ ← p.release l
            let now ← l.perform .now
            return .inl { l with masterDownDeadline := now + centis c }

/-- Nothing arrived in time: a Master's advertisement, or a Backup's takeover, may be due. -/
def onTimedOut (p : Params) (l : Locals) : Prog (Locals ⊕ Exit) := do
  let now ← l.perform .now
  if l.vr.state = .master ∧ l.nextAdvert ≤ now then
    let _ ← p.send l p.priority
    return .inl { l with nextAdvert := now + millis (p.router.advertIntervalCentis.toNat * 10) }
  else if l.vr.state = .backup ∧ l.masterDownDeadline ≤ now then
    let (takesOver, vr) := l.vr.onMasterDownTimeout (← l.perform .healthy)
    let l := { l with vr }
    if takesOver then
      let _ ← p.claim l
      return .inl { l with nextAdvert := now }
    else
      return .inl { l with masterDownDeadline := now + centis vr.masterDownIntervalCentis }
  else return .inl l

/-- How long a turn waits: until the next deadline, but between 10 and 500 ms. -/
def readTimeout (l : Locals) (now : Instant) : Instant :=
  let wake := if l.vr.state = .master then l.nextAdvert else l.masterDownDeadline
  max (millis 10) (min (millis 500) (wake - now))

/-- Wait for a datagram, and handle what the wait brought. -/
def await (p : Params) (l : Locals) : Prog (Locals ⊕ Exit) := do
  let _ ← l.perform (.handleSet l.vr.state)
  let now ← l.perform .now
  if ← l.perform (.setReadTimeout (readTimeout l now)) then
    match ← l.perform .recvFrom with
    | .datagram data => p.onDatagram l data
    | .timedOut => p.onTimedOut l
    | .failed => return .inr (.error .recv)
  else return .inr (.error .setReadTimeout)

/-- One turn of the loop of `run_loop`. -/
def turnLoop (p : Params) (l : Locals) : Prog (Locals ⊕ Exit) := do
  if ← l.perform .stopLoad then p.stopped l
  else
    let l ← p.checkHealth l
    p.await l

/-- What `run` does once `run_loop` has returned: the handle shows it stopped. -/
def leave : Locals ⊕ Exit → Prog (Locals ⊕ Exit)
  | .inl l => return .inl l
  | .inr exit => do
      let _ ← outside (.handleSet .init)
      return .inr exit

/-- The head of `run`. -/
def startRun (p : Params) : Prog (Locals ⊕ Exit) := do
  leave (← p.startLoop)

/-- One turn of `run`. -/
def turnRun (p : Params) (l : Locals) : Prog (Locals ⊕ Exit) := do
  leave (← p.turnLoop l)

end Params

end StormLb.Vrrp
