import StormLb.Net.Addr
import StormLb.Net.Bytes

/-!
# The VRRP advertisement codec

A version 3 advertisement: version and type, virtual router id, priority, the
number of addresses, the interval in its low 12 bits, the checksum over the
IPv4 pseudo-header and the payload, and the addresses.
-/

namespace StormLb.Vrrp

open StormLb.Net

/-- The link-local multicast group all VRRP routers listen on. -/
def vrrpMcast : Ipv4Addr :=
  ⟨224, 0, 0, 18⟩

/-- The IP protocol number of VRRP. -/
def ipprotoVrrp : UInt8 :=
  112

/-- The sum of the 16-bit words, an odd last byte counting as a high byte. -/
def sumWords : UInt32 → List UInt8 → UInt32
  | sum, [] => sum
  | sum, [last] => sum + last.toUInt32 * 256
  | sum, high :: low :: rest => sumWords (sum + (fromBeBytes high low).toUInt32) rest

/-- Add the carries to the low 16 bits until there are none. -/
def foldCarries : Nat → UInt32 → UInt32
  | 0, sum => sum
  | passes + 1, sum =>
      if sum / 65536 = 0 then sum else foldCarries passes (sum % 65536 + sum / 65536)

/-- Three passes always leave no carry, so the loop of the source ends there. -/
theorem foldCarries_lt (sum : UInt32) : (foldCarries 3 sum).toNat < 65536 := by
  have step (n : UInt32) : (n % 65536 + n / 65536).toNat = n.toNat % 65536 + n.toNat / 65536 := by
    have bound := n.toNat_lt
    simp only [UInt32.toNat_add, UInt32.toNat_mod, UInt32.toNat_div, UInt32.reduceToNat]
    omega
  have carry (n : UInt32) : n / 65536 = 0 ↔ n.toNat < 65536 := by
    have bound := n.toNat_lt
    simp only [← UInt32.toNat_inj, UInt32.toNat_div, UInt32.reduceToNat]
    omega
  have bound := sum.toNat_lt
  simp only [foldCarries, carry, step]
  split_ifs
  · assumption
  · rw [step]
    omega
  · rw [step, step]
    omega
  · rw [step, step, step]
    omega

/-- The 16-bit one's-complement checksum. -/
def onesComplementChecksum (data : List UInt8) : UInt16 :=
  ~~~(foldCarries 3 (sumWords 0 data)).toUInt16

/-- The IPv4 pseudo-header followed by the payload. -/
def withPseudoHeader (vrrp : List UInt8) (src : Ipv4Addr) : List UInt8 :=
  src.octets ++ vrrpMcast.octets ++ [0, ipprotoVrrp] ++ toBeBytes vrrp.length.toUInt16 ++ vrrp

def encodeAdvertisement (vrid priority : UInt8) (advertIntervalCentis : UInt16)
    (vips : List Ipv4Addr) (src : Ipv4Addr) : List UInt8 :=
  let mai := advertIntervalCentis &&& 0x0fff
  -- The two zero bytes hold the checksum's place while it is computed.
  let p := [0x31, vrid, priority, vips.length.toUInt8] ++ toBeBytes mai ++ [0, 0] ++
    vips.flatMap Ipv4Addr.octets
  let ck := onesComplementChecksum (withPseudoHeader p src)
  p.take 6 ++ toBeBytes ck ++ p.drop 8

/-- A received advertisement. -/
structure Advert where
  priority : UInt8
  src : Ipv4Addr
  intervalCentis : UInt16
  deriving DecidableEq, Repr

/-- A datagram with its IP header, if it is a valid advertisement for `ourVrid`. -/
def parseAdvertisement (datagram : List UInt8) (ourVrid : UInt8) : Option Advert :=
  if datagram.length < 20 then none
  else
    let ihl := (datagram.getD 0 0 &&& 0x0f).toNat * 4
    if ihl < 20 ∨ datagram.length < ihl + 8 ∨ datagram.getD 8 0 ≠ 255 then none
    else
      let src : Ipv4Addr :=
        ⟨datagram.getD 12 0, datagram.getD 13 0, datagram.getD 14 0, datagram.getD 15 0⟩
      let vrrp := datagram.drop ihl
      let version := vrrp.getD 0 0 >>> 4
      let vtype := vrrp.getD 0 0 &&& 0x0f
      if version ≠ 3 ∨ vtype ≠ 1 ∨ vrrp.getD 1 0 ≠ ourVrid then none
      else if onesComplementChecksum (withPseudoHeader vrrp src) ≠ 0 then none
      else
        some
          { priority := vrrp.getD 2 0
            src
            intervalCentis := fromBeBytes (vrrp.getD 4 0) (vrrp.getD 5 0) &&& 0x0fff }

/-- The priority an encoded advertisement carries. -/
def advertisedPriority (packet : List UInt8) : UInt8 :=
  packet.getD 2 0

@[simp] theorem advertisedPriority_encode (vrid priority : UInt8) (advertIntervalCentis : UInt16)
    (vips : List Ipv4Addr) (src : Ipv4Addr) :
    advertisedPriority (encodeAdvertisement vrid priority advertIntervalCentis vips src) =
      priority :=
  rfl

example : parseAdvertisement
    ([0x45, 0, 0, 0, 0, 0, 0, 0, 255, 112, 0, 0, 192, 168, 8, 11, 224, 0, 0, 18] ++
      encodeAdvertisement 51 200 100 [⟨192, 168, 8, 50⟩] ⟨192, 168, 8, 11⟩) 51 =
    some ⟨200, ⟨192, 168, 8, 11⟩, 100⟩ := by decide

end StormLb.Vrrp
