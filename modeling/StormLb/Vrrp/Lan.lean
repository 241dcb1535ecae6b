import StormLb.Effects.Guarantee
import StormLb.Heartbeat
import StormLb.Vrrp.OnInterfaces
import StormLb.Vrrp.RoundTrip
import StormLb.Vrrp.Timers

/-!
# The loops of a LAN in real time

The routers of one VRID multicast to each other.  Time passes between any two
operations, but no loop is longer than a pace about its next one; a packet is
under way no longer than a latency, may overtake others, and may be lost soon
after one that arrived.  One of the routers works throughout: nothing it asks of
its node fails, it has a healthy backend, and nobody stops it.
-/

namespace StormLb.Vrrp

open StormLb.Net StormLb.Effects StormLb.Heartbeat

/-- What a router sent, and when. -/
structure Packet (ι : Type) where
  sentAt : Instant
  sender : ι
  bytes : List UInt8
  deriving DecidableEq, Repr

/-- What arrives at a router: a packet, or something that is no advertisement. -/
inductive Arrival (ι : Type) where
  | packet (packet : Packet ι)
  | noise (data : List UInt8)
  deriving DecidableEq, Repr

/-- The routers of one VRID on a LAN, each with its own address, and what the LAN promises. -/
structure Lan (ι : Type) where
  params : ι → Params
  addr : ι → Ipv4Addr
  /-- What the kernel of a node puts in front of a packet. -/
  header : ι → Instant → Ipv4Header
  /-- The router that works throughout. -/
  lead : ι
  /-- From one operation of a loop to its next, and from a timeout to its notice. -/
  pace : Instant
  latency : Instant
  /-- How long after one that arrived a packet may be lost. -/
  window : Instant
  sameVrid : ∀ i, (params i).vrid = (params lead).vrid
  addrInjective : Function.Injective addr
  src : ∀ i moment, (header i moment).src = addr i
  ttl : ∀ i moment, (header i moment).ttl = 255
  priority : (params lead).priority ≠ 0

/-- The time, the loops' next operations, the packets, and which nodes have the VIP. -/
structure Wire (ι : Type) where
  now : Instant
  /-- By when a loop performs its next operation, unless it has ended. -/
  due : ι → Option Instant
  /-- Everything that was sent, newest first. -/
  sent : List (Packet ι)
  underWay : ι → List (Packet ι)
  /-- When the newest packet that arrived at a router was sent. -/
  arrived : ι → Option Instant
  /-- What a router has not read yet, oldest first. -/
  unread : ι → List (Arrival ι)
  holds : ι → Bool

namespace Wire

variable {ι : Type}

/-- All loops are about to start. -/
def start (pace : Instant) : Wire ι where
  now := 0
  due := fun _ => some pace
  sent := []
  underWay := fun _ => []
  arrived := fun _ => none
  unread := fun _ => []
  holds := fun _ => false

def times (w : Wire ι) : List Instant :=
  w.sent.map Packet.sentAt

variable [DecidableEq ι]

/-- A loop performs an operation, and is about its next one for so long. -/
def act (w : Wire ι) (i : ι) (span : Instant) : Wire ι :=
  { w with due := Function.update w.due i (some (w.now + span)) }

/-- A loop performs its last operation. -/
def rest (w : Wire ι) (i : ι) : Wire ι :=
  { w with due := Function.update w.due i none }

def hold (w : Wire ι) (i : ι) (holds : Bool) : Wire ι :=
  { w with holds := Function.update w.holds i holds }

/-- A packet is on its way to every other router. -/
def send (w : Wire ι) (i : ι) (bytes : List UInt8) : Wire ι :=
  { w with
    sent := ⟨w.now, i, bytes⟩ :: w.sent
    underWay := fun j => if j = i then w.underWay j else ⟨w.now, i, bytes⟩ :: w.underWay j }

/-- A packet is no longer on its way to this router. -/
def drop (w : Wire ι) (i : ι) (packet : Packet ι) : Wire ι :=
  { w with underWay := Function.update w.underWay i ((w.underWay i).erase packet) }

/-- Something arrives at a router. -/
def queue (w : Wire ι) (i : ι) (arrival : Arrival ι) : Wire ι :=
  { w with unread := Function.update w.unread i (w.unread i ++ [arrival]) }

def mark (w : Wire ι) (i : ι) (sentAt : Instant) : Wire ι :=
  { w with arrived := Function.update w.arrived i (some (max sentAt ((w.arrived i).getD sentAt))) }

def read (w : Wire ι) (i : ι) (later : List (Arrival ι)) : Wire ι :=
  { w with unread := Function.update w.unread i later }

variable (w : Wire ι) {i j : ι}

@[simp] theorem act_due_self (span : Instant) : (w.act i span).due i = some (w.now + span) :=
  Function.update_self ..

theorem act_due_of_ne (other : j ≠ i) (span : Instant) : (w.act i span).due j = w.due j :=
  Function.update_of_ne other ..

@[simp] theorem rest_due_self : (w.rest i).due i = none :=
  Function.update_self ..

theorem rest_due_of_ne (other : j ≠ i) : (w.rest i).due j = w.due j :=
  Function.update_of_ne other ..

@[simp] theorem hold_self (holds : Bool) : (w.hold i holds).holds i = holds :=
  Function.update_self ..

theorem hold_of_ne (other : j ≠ i) (holds : Bool) : (w.hold i holds).holds j = w.holds j :=
  Function.update_of_ne other ..

@[simp] theorem read_self (later : List (Arrival ι)) : (w.read i later).unread i = later :=
  Function.update_self ..

theorem read_of_ne (other : j ≠ i) (later : List (Arrival ι)) :
    (w.read i later).unread j = w.unread j :=
  Function.update_of_ne other ..

@[simp] theorem mark_self (sentAt : Instant) :
    (w.mark i sentAt).arrived i = some (max sentAt ((w.arrived i).getD sentAt)) :=
  Function.update_self ..

theorem mark_of_ne (other : j ≠ i) (sentAt : Instant) :
    (w.mark i sentAt).arrived j = w.arrived j :=
  Function.update_of_ne other ..

@[simp] theorem queue_self (arrival : Arrival ι) :
    (w.queue i arrival).unread i = w.unread i ++ [arrival] :=
  Function.update_self ..

theorem queue_of_ne (other : j ≠ i) (arrival : Arrival ι) :
    (w.queue i arrival).unread j = w.unread j :=
  Function.update_of_ne other ..

@[simp] theorem drop_self (packet : Packet ι) :
    (w.drop i packet).underWay i = (w.underWay i).erase packet :=
  Function.update_self ..

theorem drop_of_ne (other : j ≠ i) (packet : Packet ι) :
    (w.drop i packet).underWay j = w.underWay j :=
  Function.update_of_ne other ..

@[simp] theorem send_self (bytes : List UInt8) : (w.send i bytes).underWay i = w.underWay i :=
  if_pos rfl

theorem send_of_ne (other : j ≠ i) (bytes : List UInt8) :
    (w.send i bytes).underWay j = ⟨w.now, i, bytes⟩ :: w.underWay j :=
  if_neg other

end Wire

namespace Lan

variable {ι : Type} [DecidableEq ι] (lan : Lan ι)

/-- An arrival as it is received. -/
def datagram : Arrival ι → List UInt8
  | .packet packet => (lan.header packet.sender packet.sentAt).bytes ++ packet.bytes
  | .noise data => data

/-- What may fail, though not at the router that works throughout. -/
def mayFail (i : ι) (fails : Bool) (after : Wire ι) : Option (Wire ι) :=
  if fails = true ∧ i = lan.lead then none else some after

/-- What the LAN and a router's node answer. -/
def serve (i : ι) (w : Wire ι) : (call : Call) → call.Ans → Option (Wire ι)
  | ⟨_, .interfaceIpv4 _⟩, none => lan.mayFail i true (w.act i lan.pace)
  | ⟨_, .interfaceIpv4 _⟩, some ip => if ip = lan.addr i then some (w.act i lan.pace) else none
  | ⟨_, .openSocket _⟩, opened => lan.mayFail i (!opened) (w.act i lan.pace)
  | ⟨_, .healthy⟩, healthy => lan.mayFail i (!healthy) (w.act i lan.pace)
  | ⟨_, .now⟩, now => if now = w.now then some (w.act i lan.pace) else none
  | ⟨_, .claim _ _⟩, claimed =>
      lan.mayFail i (!claimed) ((if claimed then w.hold i true else w).act i lan.pace)
  | ⟨_, .release _ _⟩, released =>
      lan.mayFail i (!released) ((if released then w.hold i false else w).act i lan.pace)
  | ⟨_, .sendTo bytes⟩, sent =>
      lan.mayFail i (!sent) ((if sent then w.send i bytes else w).act i lan.pace)
  | ⟨_, .stopLoad⟩, stop => lan.mayFail i stop (w.act i lan.pace)
  | ⟨_, .handleSet state⟩, _ =>
      -- The last thing a loop does is to mark its handle stopped.
      some (if state = .init then w.rest i else w.act i lan.pace)
  | ⟨_, .setReadTimeout timeout⟩, isSet => lan.mayFail i (!isSet) (w.act i (timeout + lan.pace))
  | ⟨_, .recvFrom⟩, .datagram data =>
      match w.unread i with
      | [] => none
      | arrival :: later =>
          if lan.datagram arrival = data then some ((w.read i later).act i lan.pace) else none
  | ⟨_, .recvFrom⟩, .timedOut => if w.unread i = [] then some (w.act i lan.pace) else none
  | ⟨_, .recvFrom⟩, .failed => lan.mayFail i true (w.act i lan.pace)

/--
Time passes, packets arrive or are lost, and what is no advertisement of this
virtual router arrives at the others at any time.  Packets also queue at a router
before it has opened its socket, where a kernel would drop them: the runs in which
every packet finds its socket open are among these.
-/
inductive Drifts (w : Wire ι) : Wire ι → Prop where
  | pass {later : Instant} (onward : w.now ≤ later)
      (inTime : ∀ i moment, w.due i = some moment → later ≤ moment)
      (arrives : ∀ i, ∀ packet ∈ w.underWay i, later ≤ packet.sentAt + lan.latency) :
      Drifts w { w with now := later }
  | arrive {i : ι} {packet : Packet ι} (underWay : packet ∈ w.underWay i) :
      Drifts w (((w.drop i packet).queue i (.packet packet)).mark i packet.sentAt)
  | lose {i : ι} {packet : Packet ι} {earlier : Instant} (underWay : packet ∈ w.underWay i)
      (arrived : w.arrived i = some earlier) (soon : packet.sentAt ≤ earlier + lan.window) :
      Drifts w (w.drop i packet)
  | noise {i : ι} {data : List UInt8} (other : i ≠ lan.lead)
      (unknown : parseAdvertisement data (lan.params lan.lead).vrid = none) :
      Drifts w (w.queue i (.noise data))

/-- The loops of the LAN. -/
def loops : Threads ι Call Call.Ans Locals Exit (Wire ι) where
  first i := (lan.params i).startRun
  body i := (lan.params i).turnRun
  serves := lan.serve
  drifts := lan.Drifts

/-! ## What is waited for -/

omit [DecidableEq ι]

/-- Between two advertisements of the Master. -/
def interval : Instant :=
  millis ((lan.params lan.lead).router.advertIntervalCentis.toNat * 10)

/-- How late a loop may be: one turn, and the shortest wait. -/
def slack : Instant :=
  10 * lan.pace + millis 10

/-- How long the router waits at its start; the address owner does not. -/
def wait : Instant :=
  if (lan.params lan.lead).priority = 255 then 0
  else centis (lan.params lan.lead).router.masterDownIntervalCentis

/-- When it has become Master and advertised. -/
def first : Instant :=
  lan.wait + 6 * lan.pace + 2 * lan.slack

def gap : Instant :=
  lan.interval + lan.slack

/-- When the next advertisement is sent at the latest. -/
def nextBy (w : Wire ι) : Instant :=
  Heartbeat.nextBy lan.first lan.gap w.times

/--
The others wait longer at their start, and they take the advertisements of this
router as a Master's; three of its intervals are longer than it can be unheard.
-/
structure Timely : Prop where
  noOwner : ∀ i, i ≠ lan.lead → (lan.params i).priority ≠ 255
  yields : ∀ i, i ≠ lan.lead → (lan.params i).preempt = false ∨
    (lan.params i).priority ≤ (lan.params lan.lead).priority
  patient : ∀ i, i ≠ lan.lead →
    lan.first + lan.latency + lan.pace < centis (lan.params i).router.masterDownIntervalCentis
  steady : lan.window + lan.gap + lan.latency + lan.pace < 3 * lan.interval

/-! ## What holds throughout -/

/-- The one advertisement on the LAN. -/
def advertisement : List UInt8 :=
  (lan.params lan.lead).advertisement (lan.params lan.lead).priority (lan.addr lan.lead)

structure Sound (w : Wire ι) : Prop where
  inTime : ∀ i moment, w.due i = some moment → w.now ≤ moment
  awake : ∃ moment, w.due lan.lead = some moment ∧ moment ≤ lan.nextBy w
  paced : Paced lan.first lan.gap w.times
  /-- Only the one router advertises. -/
  sent : ∀ packet ∈ w.sent,
    packet.sender = lan.lead ∧ packet.sentAt ≤ w.now ∧ packet.bytes = lan.advertisement
  /-- What arrives at a router was sent by another. -/
  underWay : ∀ i, ∀ packet ∈ w.underWay i,
    packet ∈ w.sent ∧ i ≠ lan.lead ∧ w.now ≤ packet.sentAt + lan.latency
  unread : ∀ i, ∀ arrival ∈ w.unread i, i ≠ lan.lead ∧
    ∀ packet, arrival = .packet packet → packet ∈ w.sent ∧ w.arrived i ≠ none
  noise : ∀ i data, .noise data ∈ w.unread i →
    parseAdvertisement data (lan.params lan.lead).vrid = none
  arrived : ∀ i earlier, w.arrived i = some earlier → earlier ∈ w.times
  /-- An advertisement reaches a router, or one sent a window before it did. -/
  reaches : ∀ i, i ≠ lan.lead → ∀ packet ∈ w.sent, packet ∈ w.underWay i ∨
    ∃ earlier, w.arrived i = some earlier ∧ packet.sentAt ≤ earlier + lan.window
  /-- Only the one router has the VIP, and it has it once it advertised. -/
  alone : ∀ i, w.holds i = true → i = lan.lead
  holds : w.sent ≠ [] → w.holds lan.lead = true

/-- This deadline is far enough, or it will be once everything is read. -/
def Hears (i : ι) (deadline : Instant) (w : Wire ι) : Prop :=
  match w.arrived i with
  | none => centis (lan.params i).router.masterDownIntervalCentis ≤ deadline
  | some earlier => earlier + 3 * lan.interval ≤ deadline ∨
      ∃ packet, .packet packet ∈ w.unread i ∧ earlier ≤ packet.sentAt

/-- What a router relies on: the others leave its own alone, and time goes on. -/
structure Frame (i : ι) (w after : Wire ι) : Prop where
  now : w.now ≤ after.now
  due : after.due i = w.due i
  arrived : w.arrived i ≠ none → after.arrived i ≠ none
  hears : ∀ deadline, lan.Hears i deadline w → lan.Hears i deadline after
  sent : i = lan.lead → after.sent = w.sent
  holds : i = lan.lead → after.holds i = w.holds i
  sound : lan.Sound w → lan.Sound after

/-- What a router guarantees. -/
structure Guarantees (i : ι) (w after : Wire ι) : Prop where
  sound : lan.Sound w → lan.Sound after
  frame : ∀ j, j ≠ i → lan.Frame j w after

variable {lan}

@[refl] theorem Frame.refl (i : ι) (w : Wire ι) : lan.Frame i w w :=
  ⟨Nat.le_refl _, rfl, id, fun _ => id, fun _ => rfl, fun _ => rfl, id⟩

theorem Frame.trans {i : ι} {a b c : Wire ι} (first : lan.Frame i a b) (second : lan.Frame i b c) :
    lan.Frame i a c where
  now := first.now.trans second.now
  due := second.due.trans first.due
  arrived := second.arrived ∘ first.arrived
  hears deadline := second.hears deadline ∘ first.hears deadline
  sent same := (second.sent same).trans (first.sent same)
  holds same := (second.holds same).trans (first.holds same)
  sound := second.sound ∘ first.sound

end Lan

end StormLb.Vrrp
