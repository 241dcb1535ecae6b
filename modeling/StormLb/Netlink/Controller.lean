import StormLb.Effects.Program
import StormLb.Net.AddrText
import StormLb.Netlink.Attributes
import StormLb.Netlink.Request
import StormLb.Text.Utf8

/-!
# The VIP controller

`Netlink` claims and releases a VIP as a /32 of an interface.  Each request goes
over a socket of its own.  A takeover is announced by a thread that the claim
spawns; what that thread broadcasts is left out.
-/

namespace StormLb.Netlink

open StormLb.Net StormLb.Checked StormLb.Effects StormLb.Text

def rtmGetlink : UInt16 := 18
def rtmDeladdr : UInt16 := 21
def rtmGetaddr : UInt16 := 22
def nlmFAck : UInt16 := 0x4
def nlmFExcl : UInt16 := 0x200
def nlmFCreate : UInt16 := 0x400
def nlmFDump : UInt16 := 0x300

def eexist : Int32 := 17
def eaddrnotavail : Int32 := 99

/-- Why a claim, a release or a lookup failed. -/
inductive VipError where
  | notIpv4 (vip : String)
  | socket (errno : Int32)
  | listingInterfaces (error : NlError)
  | noInterface (iface : String)
  | adding (vip iface : String) (error : NlError)
  | deleting (vip iface : String) (error : NlError)
  | listingAddresses (error : NlError)
  | noAddress (iface : String)
  deriving DecidableEq, Repr

/-- The text of `{:#}`; `os` is that of an errno. -/
def VipError.display (os : Int32 → String) : VipError → String
  | .notIpv4 vip => s!"VIP {vip} is not IPv4: invalid IPv4 address syntax"
  | .socket errno => os errno
  | .listingInterfaces error => s!"listing interfaces (rtnetlink): {text error}"
  | .noInterface iface => s!"no interface {iface}"
  | .adding vip iface error => s!"adding {vip}/32 to {iface}: {text error}"
  | .deleting vip iface error => s!"deleting {vip}/32 from {iface}: {text error}"
  | .listingAddresses error => s!"listing addresses (rtnetlink): {text error}"
  | .noAddress iface => s!"no IPv4 address on interface {iface}"
where
  text : NlError → String
    | .os errno => os errno
    | .truncated => "truncated netlink message"

/-! ## What the controller asks for -/

inductive VipOp where
  /-- `Nl::open` -/
  | openSocket
  /-- `Nl::request`, on the socket opened last. -/
  | request (ty flags : UInt16) (payload : List UInt8)
  /-- The thread that announces the takeover. -/
  | announce (index : UInt32) (mac : Vector UInt8 6) (ip : Ipv4Addr)

abbrev VipOp.Ans : VipOp → Type
  | .openSocket => Except Int32 Unit
  | .request .. => Except NlError Replies
  | .announce .. => Unit

abbrev VipProg := Program VipOp VipOp.Ans

/-- What a call comes to; a fault would be a panic. -/
abbrev Outcome (α : Type) : Type :=
  Except Fault (Except VipError α)

section

variable (e : Endian)

/-- Open a socket, ask for a dump, and go on with what it shows. -/
def dump {α : Type} (ty : UInt16) (payload : List UInt8) (listing : NlError → VipError)
    (rest : Replies → VipProg (Outcome α)) : VipProg (Outcome α) :=
  .call .openSocket fun
    | .error errno => .done (.ok (.error (.socket errno)))
    | .ok () =>
        .call (.request ty nlmFDump payload) fun
          | .error error => .done (.ok (.error (listing error)))
          | .ok msgs => rest msgs

/-- Go on with the interface of that name, if the dump shows one. -/
def linkIn {α : Type} (iface : String) (rest : Link → VipProg (Outcome α)) (msgs : Replies) :
    VipProg (Outcome α) :=
  match parseLinks e msgs (utf8 iface.toList) with
  | .error fault => .done (.error fault)
  | .ok none => .done (.ok (.error (.noInterface iface)))
  | .ok (some l) => rest l

/-- Look an interface up by name, and go on with it. -/
def withLink {α : Type} (iface : String) (rest : Link → VipProg (Outcome α)) :
    VipProg (Outcome α) :=
  dump rtmGetlink (List.replicate 16 0) .listingInterfaces (linkIn e iface rest)

/-- `<vip>/32` on interface `index`, as RTM_NEWADDR or RTM_DELADDR. -/
def addrChange (ty flags : UInt16) (index : UInt32) (ip : Ipv4Addr) :
    VipProg (Except NlError Replies) :=
  .call .openSocket fun
    | .error errno => .done (.error (.os errno))
    | .ok () => .call (.request ty (flags ||| nlmFAck) (addrPayload e index ip)) .done

/-- Announce a VIP that is on the interface now; `lo` has no hardware address. -/
def announceOn (l : Link) (ip : Ipv4Addr) : VipProg (Outcome Unit) :=
  if l.mac ≠ .replicate 6 0 then .call (.announce l.index l.mac ip) fun _ => .done (.ok (.ok ()))
  else .done (.ok (.ok ()))

/-- The VIP is brought up on this interface, and announced. -/
def claimOn (vip iface : String) (ip : Ipv4Addr) (l : Link) : VipProg (Outcome Unit) := do
  match ← addrChange e rtmNewaddr (nlmFCreate ||| nlmFExcl) l.index ip with
  | .ok _ => announceOn l ip
  | .error error =>
      -- The address is there already.
      if error = .os eexist then announceOn l ip
      else return .ok (.error (.adding vip iface error))

/-- Bring the VIP up on the interface, and announce it. -/
def claim (vip iface : String) : VipProg (Outcome Unit) :=
  match Ipv4Addr.parse vip with
  | none => .done (.ok (.error (.notIpv4 vip)))
  | some ip => withLink e iface (claimOn e vip iface ip)

/-- The VIP is removed from this interface. -/
def releaseOn (vip iface : String) (ip : Ipv4Addr) (l : Link) : VipProg (Outcome Unit) := do
  match ← addrChange e rtmDeladdr 0 l.index ip with
  | .ok _ => return .ok (.ok ())
  | .error error =>
      if error = .os eaddrnotavail then return .ok (.ok ())
      else return .ok (.error (.deleting vip iface error))

/-- Remove the VIP from the interface. -/
def release (vip iface : String) : VipProg (Outcome Unit) :=
  match Ipv4Addr.parse vip with
  | none => .done (.ok (.error (.notIpv4 vip)))
  | some ip => withLink e iface (releaseOn e vip iface ip)

/-- The first address with a prefix shorter than 32 bits, else the first. -/
def ownAddress (addrs : List (Ipv4Addr × UInt8)) : Option Ipv4Addr :=
  ((addrs.find? fun addr => addr.2 < 32).or addrs.head?).map Prod.fst

/-- The own address of this interface, if the dump shows one. -/
def addressIn (iface : String) (l : Link) (msgs : Replies) : VipProg (Outcome Ipv4Addr) :=
  match parseAddrs e msgs l.index with
  | .error fault => .done (.error fault)
  | .ok addrs =>
      match ownAddress addrs with
      | none => .done (.ok (.error (.noAddress iface)))
      | some ip => .done (.ok (.ok ip))

/-- Ask for the addresses, and look for those of this interface. -/
def addressOn (iface : String) (l : Link) : VipProg (Outcome Ipv4Addr) :=
  dump rtmGetaddr (afInet :: List.replicate 7 0) .listingAddresses (addressIn e iface l)

/-- The interface's own IPv4 address, the VRRP source. -/
def interfaceIpv4 (iface : String) : VipProg (Outcome Ipv4Addr) :=
  withLink e iface (addressOn e iface)

end

end StormLb.Netlink
