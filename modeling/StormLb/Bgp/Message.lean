import StormLb.Net.Addr
import StormLb.Net.Bytes

/-!
# BGP messages

The messages the speaker sends, their encoding, and the check of a peer's OPEN.
-/

namespace StormLb.Bgp

open StormLb.Net

def holdTime : UInt16 := 180

/-! ## Types and codes -/

def typeOpen : UInt8 := 1
def typeUpdate : UInt8 := 2
def typeNotification : UInt8 := 3
def typeKeepalive : UInt8 := 4

def errHeader : UInt8 := 1
def errOpen : UInt8 := 2
def errOpenVersion : UInt8 := 1
def errOpenPeerAs : UInt8 := 2
def errOpenHold : UInt8 := 6
def errHoldExpired : UInt8 := 4
def errFsm : UInt8 := 5

/-! ## Encoding -/

/-- Wrap a body in the 19-byte header: marker, length and type. -/
def message (msgType : UInt8) (body : List UInt8) : List UInt8 :=
  List.replicate 16 0xff ++ toBeBytes (UInt16.ofNat (19 + body.length)) ++ [msgType] ++ body

def openMsg (localAsn hold : UInt16) (bgpId : Ipv4Addr) : List UInt8 :=
  message typeOpen ([4] ++ toBeBytes localAsn ++ toBeBytes hold ++ bgpId.octets ++ [0])

def keepaliveMsg : List UInt8 :=
  message typeKeepalive []

def notificationMsg (code sub : UInt8) : List UInt8 :=
  message typeNotification [code, sub]

/-- The prefix length and the significant bytes of the prefix. -/
def encodePrefix (vip : Ipv4Addr) (prefixLen : UInt8) : List UInt8 :=
  prefixLen :: vip.octets.take ((prefixLen.toNat + 7) / 8)

/-- An UPDATE that announces a prefix with ORIGIN, AS_PATH and NEXT_HOP. -/
def updateAnnounce (localAsn : UInt16) (nextHop vip : Ipv4Addr) (prefixLen : UInt8) : List UInt8 :=
  let attrs := [0x40, 1, 1, 0] ++ [0x40, 2, 4, 2, 1] ++ toBeBytes localAsn ++ [0x40, 3, 4] ++
    nextHop.octets
  message typeUpdate
    (toBeBytes 0 ++ toBeBytes (UInt16.ofNat attrs.length) ++ attrs ++ encodePrefix vip prefixLen)

/-- An UPDATE that withdraws a prefix. -/
def updateWithdraw (vip : Ipv4Addr) (prefixLen : UInt8) : List UInt8 :=
  let withdrawn := encodePrefix vip prefixLen
  message typeUpdate (toBeBytes (UInt16.ofNat withdrawn.length) ++ withdrawn ++ toBeBytes 0)

/-- A message the speaker sends. -/
inductive Message where
  | opening (localAsn hold : UInt16) (bgpId : Ipv4Addr)
  | keepalive
  | announce (localAsn : UInt16) (nextHop vip : Ipv4Addr) (prefixLen : UInt8)
  | withdraw (vip : Ipv4Addr) (prefixLen : UInt8)
  | notification (code sub : UInt8)
  deriving DecidableEq, Repr

def Message.encode : Message → List UInt8
  | .opening localAsn hold bgpId => openMsg localAsn hold bgpId
  | .keepalive => keepaliveMsg
  | .announce localAsn nextHop vip prefixLen => updateAnnounce localAsn nextHop vip prefixLen
  | .withdraw vip prefixLen => updateWithdraw vip prefixLen
  | .notification code sub => notificationMsg code sub

/-! ## The peer's OPEN -/

/-- The NOTIFICATION a refusal sends, and why. -/
structure Refusal where
  code : UInt8
  sub : UInt8
  why : String
  deriving DecidableEq, Repr

/-- The peer's hold time, or why its OPEN is refused. -/
def checkOpen (body : List UInt8) (wantAsn : UInt32) : Except Refusal UInt16 :=
  match body with
  | version :: as1 :: as0 :: hold1 :: hold0 :: _ :: _ :: _ :: _ :: _ :: _ =>
      if version ≠ 4 then
        .error ⟨errOpen, errOpenVersion, s!"BGP version {version.toNat}"⟩
      else
        let asn := (fromBeBytes as1 as0).toUInt32
        if asn ≠ wantAsn then
          .error ⟨errOpen, errOpenPeerAs, s!"peer AS{asn.toNat}, configured AS{wantAsn.toNat}"⟩
        else
          let hold := fromBeBytes hold1 hold0
          if hold = 1 ∨ hold = 2 then
            .error ⟨errOpen, errOpenHold, s!"hold time {hold.toNat} s"⟩
          else .ok hold
  | _ => .error ⟨errOpen, 0, s!"OPEN body of {body.length} bytes"⟩

example : checkOpen ((openMsg 64512 2 ⟨10, 0, 0, 1⟩).drop 19) 64512 =
    .error ⟨errOpen, errOpenHold, "hold time 2 s"⟩ := by decide

end StormLb.Bgp
