import StormLb.Netlink.Controller
import StormLb.Netlink.Reassembly

/-!
# The kernel behind the controller

What rtnetlink does with the requests of the controller: a dump shows the devices
or the addresses in their order, among whatever other attributes, RTM_NEWADDR with
NLM_F_EXCL adds an address that is not there yet, RTM_DELADDR removes one that is.
Every request may be refused.
-/

namespace StormLb.Netlink

open StormLb.Net StormLb.Checked StormLb.Effects

/-- A network device. -/
structure Device where
  index : UInt32
  name : List UInt8
  hardware : Option (List UInt8)
  deriving DecidableEq, Repr

/-- An IPv4 address of an interface, with the other end's and the prefix length. -/
structure IfAddr where
  index : UInt32
  own : Ipv4Addr
  peer : Ipv4Addr
  prefixLen : UInt8
  deriving DecidableEq, Repr

/-- What `addr_payload` asks for: a /32. -/
def IfAddr.host (index : UInt32) (ip : Ipv4Addr) : IfAddr where
  index := index
  own := ip
  peer := ip
  prefixLen := 32

/-! ## Answers -/

/-- The datagrams that answer a request, or the errno with which it could not be sent. -/
abbrev Answer : Type :=
  Except Int32 (List (List Message))

/-- The message that ends an answer carries this errno, negated. -/
structure EndsWith (errno : Int32) (e : Endian) (final : Message) : Prop where
  ends : final.Ends
  carries : final.errno e = -errno

/-- The datagrams fit the buffer, and say these messages and then the end. -/
structure Says (e : Endian) (ms : List Message) (errno : Int32) (packing : List (List Message)) :
    Prop where
  small : ∀ datagram ∈ packing, (Message.datagram e datagram).length ≤ 64 * 1024
  content : ∃ final, packing.flatten = ms ++ [final] ∧ EndsWith errno e final

/-- The data of the attributes of one type, whatever flags they carry. -/
def Rtattr.dataOf (ty : UInt16) (as : List Rtattr) : List (List UInt8) :=
  (as.filter fun a => a.ty &&& 0x3fff = ty).map Rtattr.data

/-- An RTM_NEWLINK message about a device; what else it carries is the kernel's. -/
structure ShowsDevice (e : Endian) (d : Device) (m : Message) : Prop where
  ty : m.ty = rtmNewlink
  seq : m.seq = 1
  body : ∃ (front : List UInt8) (padLast : Bool) (as : List Rtattr),
    m.body = front ++ Rtattr.encode e padLast as ∧ front.length = 16 ∧
    u32At e front 4 = .ok d.index ∧
    Rtattr.dataOf iflaIfname as = [d.name ++ [0]] ∧ Rtattr.dataOf iflaAddress as = d.hardware.toList

/-- An RTM_NEWADDR message about an IPv4 address; IFA_ADDRESS is missing where there is no peer. -/
structure ShowsAddr (e : Endian) (a : IfAddr) (m : Message) : Prop where
  ty : m.ty = rtmNewaddr
  seq : m.seq = 1
  body : ∃ (flags scope : UInt8) (padLast : Bool) (as : List Rtattr),
    m.body = [afInet, a.prefixLen, flags, scope] ++
      (e.toNeBytes32 a.index ++ Rtattr.encode e padLast as) ∧
    Rtattr.dataOf ifaLocal as = [a.own.octets] ∧
    ∀ data ∈ Rtattr.dataOf ifaAddress as, data = a.peer.octets

/-- What a dump of the devices or of the addresses is answered. -/
inductive Dumped {α : Type} (e : Endian) (shows : α → Message → Prop) (as : List α) : Answer → Prop
  | dumped {ms : List Message} {packing : List (List Message)} (told : Says e ms 0 packing)
      (each : List.Forall₂ shows as ms) : Dumped e shows as (.ok packing)
  | refused {errno : Int32} {ms : List Message} {packing : List (List Message)} (fails : errno ≠ 0)
      (told : Says e ms errno packing) (ours : ∀ m ∈ ms, m.seq = 1 ∧ ¬ m.Ends) :
      Dumped e shows as (.ok packing)
  | unsent {errno : Int32} : Dumped e shows as (.error errno)

/-- What RTM_NEWADDR with NLM_F_CREATE and NLM_F_EXCL does. -/
inductive Added (e : Endian) (new : IfAddr) (before : List IfAddr) :
    Answer → List IfAddr → Prop where
  | added {front back : List IfAddr} {packing : List (List Message)}
      (between : before = front ++ back) (absent : new ∉ before) (acks : Says e [] 0 packing) :
      Added e new before (.ok packing) (front ++ new :: back)
  | there {packing : List (List Message)} (present : new ∈ before)
      (acks : Says e [] eexist packing) : Added e new before (.ok packing) before
  | refused {errno : Int32} {packing : List (List Message)} (fails : errno ≠ 0)
      (other : errno ≠ eexist) (acks : Says e [] errno packing) :
      Added e new before (.ok packing) before
  | unsent {errno : Int32} (other : errno ≠ eexist) : Added e new before (.error errno) before

/-- What RTM_DELADDR does. -/
inductive Deleted (e : Endian) (old : IfAddr) (before : List IfAddr) :
    Answer → List IfAddr → Prop where
  | deleted {front back : List IfAddr} {packing : List (List Message)}
      (between : before = front ++ old :: back) (acks : Says e [] 0 packing) :
      Deleted e old before (.ok packing) (front ++ back)
  | gone {packing : List (List Message)} (absent : old ∉ before)
      (acks : Says e [] eaddrnotavail packing) : Deleted e old before (.ok packing) before
  | refused {errno : Int32} {packing : List (List Message)} (fails : errno ≠ 0)
      (other : errno ≠ eaddrnotavail) (acks : Says e [] errno packing) :
      Deleted e old before (.ok packing) before
  | unsent {errno : Int32} (other : errno ≠ eaddrnotavail) :
      Deleted e old before (.error errno) before

/-! ## The kernel -/

/-- The bytes of a request. -/
def getlink (e : Endian) : List UInt8 :=
  nlMsg e rtmGetlink nlmFDump 1 (List.replicate 16 0)

def getaddr (e : Endian) : List UInt8 :=
  nlMsg e rtmGetaddr nlmFDump 1 (afInet :: List.replicate 7 0)

def newaddr (e : Endian) (index : UInt32) (ip : Ipv4Addr) : List UInt8 :=
  nlMsg e rtmNewaddr (nlmFCreate ||| nlmFExcl ||| nlmFAck) 1 (addrPayload e index ip)

def deladdr (e : Endian) (index : UInt32) (ip : Ipv4Addr) : List UInt8 :=
  nlMsg e rtmDeladdr (0 ||| nlmFAck) 1 (addrPayload e index ip)

/-- A kernel: its devices and addresses, how it answers a message, and what it is known to do. -/
structure Kernel (e : Endian) (K : Type) where
  devices : K → List Device
  addrs : K → List IfAddr
  /-- `socket`, `bind` and `setsockopt`. -/
  opens : K → Except Int32 Unit × K
  reply : K → List UInt8 → Answer × K
  names : ∀ k, ((devices k).map Device.name).Nodup
  terminated : ∀ k, ∀ d ∈ devices k, 0 ∉ d.name
  indices : ∀ k, ((devices k).map Device.index).Nodup
  distinct : ∀ k, (addrs k).Nodup
  opens_errno : ∀ k errno, (opens k).1 = .error errno → errno ≠ eexist ∧ errno ≠ eaddrnotavail
  opens_same : ∀ k, devices (opens k).2 = devices k ∧ addrs (opens k).2 = addrs k
  getlink_same : ∀ k, devices (reply k (getlink e)).2 = devices k ∧
    addrs (reply k (getlink e)).2 = addrs k
  getlink_dumps : ∀ k, Dumped e (ShowsDevice e) (devices k) (reply k (getlink e)).1
  getaddr_same : ∀ k, devices (reply k (getaddr e)).2 = devices k ∧
    addrs (reply k (getaddr e)).2 = addrs k
  getaddr_dumps : ∀ k, Dumped e (ShowsAddr e) (addrs k) (reply k (getaddr e)).1
  newaddr_devices : ∀ k index ip, devices (reply k (newaddr e index ip)).2 = devices k
  newaddr_adds : ∀ k index ip, Added e (.host index ip) (addrs k)
    (reply k (newaddr e index ip)).1 (addrs (reply k (newaddr e index ip)).2)
  deladdr_devices : ∀ k index ip, devices (reply k (deladdr e index ip)).2 = devices k
  deladdr_deletes : ∀ k index ip, Deleted e (.host index ip) (addrs k)
    (reply k (deladdr e index ip)).1 (addrs (reply k (deladdr e index ip)).2)

/-- A node: its kernel, and the takeovers that were announced. -/
structure Node (K : Type) where
  kernel : K
  announced : List (UInt32 × Vector UInt8 6 × Ipv4Addr)

/-- What `request` returns on an answer. -/
def Answer.received (e : Endian) (ty flags : UInt16) (payload : List UInt8) :
    Answer → Except NlError Replies
  | .error errno => .error (.os errno)
  | .ok packing =>
      let queue : Queue := packing.map fun ms => .ok (Message.datagram e ms)
      match Nl.run e ty flags payload (packing.length + 1) queue with
      | some (.ok result) => result
      | _ => .error (.os eagain)

/-- The kernel answers the controller. -/
def Kernel.answer {e : Endian} {K : Type} (kernel : Kernel e K) (node : Node K) :
    (op : VipOp) → op.Ans × Node K
  | .openSocket => ((kernel.opens node.kernel).1, { node with kernel := (kernel.opens node.kernel).2 })
  | .request ty flags payload =>
      let replied := kernel.reply node.kernel (nlMsg e ty flags 1 payload)
      (replied.1.received e ty flags payload, { node with kernel := replied.2 })
  | .announce index mac ip =>
      ((), { node with announced := node.announced ++ [(index, mac, ip)] })

/-! ## What a request returns -/

variable {e : Endian}

end StormLb.Netlink
