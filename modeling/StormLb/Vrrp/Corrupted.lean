import StormLb.Vrrp.RoundTrip

/-!
# Corrupted advertisements

The checksum covers the VRRP part of a datagram and, through the pseudo-header,
its source address.  A datagram that was accepted is dropped when any one bit of
these is flipped.
-/

namespace StormLb.Vrrp

open StormLb.Net

/-- How long the datagram says its IP header is. -/
def headerLength (datagram : List UInt8) : Nat :=
  (datagram.getD 0 0 &&& 0x0f).toNat * 4

/-- The bytes of the IPv4 source address and of the VRRP part. -/
def Covered (datagram : List UInt8) (index : Nat) : Prop :=
  12 ≤ index ∧ index < 16 ∨ headerLength datagram ≤ index ∧ index < datagram.length

/-! ## The checksum -/

/-- A sum checks to zero when all ones are left of it. -/
theorem checksum_eq_zero_iff {data : List UInt8} (fits : wordSum data < 4294967296) :
    onesComplementChecksum data = 0 ↔ folded (wordSum data) = 65535 := by
  have most := folded_le (wordSum data)
  rw [← UInt16.toNat_inj, onesComplementChecksum_toNat fits, UInt16.toNat_zero]
  omega

/-- The sum of a pseudo-header and a payload that fits in a datagram does not overflow. -/
theorem wordSum_withPseudoHeader_lt {payload : List UInt8} (short : payload.length ≤ 65515)
    (src : Ipv4Addr) : wordSum (withPseudoHeader payload src) < 4294967296 := by
  have bound := wordSum_le (withPseudoHeader payload src)
  have length : (withPseudoHeader payload src).length = 12 + payload.length :=
    List.length_append
  omega

/-- What checks to zero does not after one bit was flipped. -/
theorem checksum_flip_ne {payload corrupted : List UInt8} {src src' : Ipv4Addr} {index bit : Nat}
    (short : payload.length ≤ 65515) (same : corrupted.length = payload.length)
    (inside : index < 12 + payload.length) (low : bit < 8)
    (flipped : withPseudoHeader corrupted src' = flipAt index bit (withPseudoHeader payload src))
    (checks : onesComplementChecksum (withPseudoHeader payload src) = 0) :
    onesComplementChecksum (withPseudoHeader corrupted src') ≠ 0 := by
  have length : (withPseudoHeader payload src).length = 12 + payload.length :=
    List.length_append
  rw [checksum_eq_zero_iff (wordSum_withPseudoHeader_lt short src)] at checks
  rw [Ne, checksum_eq_zero_iff (wordSum_withPseudoHeader_lt (same.trans_le short) src'), flipped]
  exact folded_flipAt_ne (inside.trans_eq length.symm) low checks

/-- One bit of the payload. -/
theorem checksum_flip_payload {payload : List UInt8} {src : Ipv4Addr} {index bit : Nat}
    (short : payload.length ≤ 65515) (inside : index < payload.length) (low : bit < 8)
    (checks : onesComplementChecksum (withPseudoHeader payload src) = 0) :
    onesComplementChecksum (withPseudoHeader (flipAt index bit payload) src) ≠ 0 := by
  refine checksum_flip_ne short (flipAt_length index bit payload)
    (Nat.add_lt_add_left inside 12) low ?_ checks
  have whole (payload : List UInt8) :
      withPseudoHeader payload src = pseudoHeader payload.length.toUInt16 src ++ payload :=
    rfl
  rw [whole, whole, flipAt_append_right (by simp), flipAt_length, pseudoHeader_length,
    Nat.add_sub_cancel_left]

/-- One bit of the source address. -/
theorem checksum_flip_src {payload : List UInt8} {src src' : Ipv4Addr} {index bit : Nat}
    (short : payload.length ≤ 65515) (inside : index < 4) (low : bit < 8)
    (flipped : src'.octets = flipAt index bit src.octets)
    (checks : onesComplementChecksum (withPseudoHeader payload src) = 0) :
    onesComplementChecksum (withPseudoHeader payload src') ≠ 0 := by
  have within : index < 12 + payload.length := by omega
  refine checksum_flip_ne short rfl within low ?_ checks
  have whole (src : Ipv4Addr) : withPseudoHeader payload src = src.octets ++
      (vrrpMcast.octets ++ [0, ipprotoVrrp] ++ toBeBytes payload.length.toUInt16 ++ payload) := by
    simp only [withPseudoHeader, List.append_assoc]
  rw [whole, whole, flipAt_append_left inside, flipped]

/-! ## The datagram -/

/-- What is accepted is a header and a payload that checks to zero. -/
theorem exists_header_of_accepted {datagram : List UInt8} {ourVrid : UInt8}
    (accepted : (parseAdvertisement datagram ourVrid).isSome = true) :
    ∃ (header : Ipv4Header) (payload : List UInt8), datagram = header.bytes ++ payload ∧
      header.bytes.length = headerLength datagram ∧ 8 ≤ payload.length ∧
      onesComplementChecksum (withPseudoHeader payload header.src) = 0 := by
  have whole := (List.take_append_drop (headerLength datagram) datagram).symm
  have lengths : 20 ≤ headerLength datagram ∧ headerLength datagram + 8 ≤ datagram.length := by
    by_contra outside
    rw [parseAdvertisement] at accepted
    split at accepted
    · cases accepted
    · dsimp only at accepted
      rw [if_pos (by unfold headerLength at outside; omega)] at accepted
      cases accepted
  obtain ⟨long, fits⟩ := lengths
  have taken : (datagram.take (headerLength datagram)).length = headerLength datagram :=
    List.length_take_of_le (by omega)
  have first : (datagram.take (headerLength datagram)).getD 0 0 = datagram.getD 0 0 := by
    conv => rhs; rw [whole]
    rw [List.getD_append _ _ _ _ (by omega)]
  let header : Ipv4Header :=
    { bytes := datagram.take (headerLength datagram)
      long := long.trans_eq taken.symm
      ihl := by rw [first, taken, headerLength] }
  have rest : 8 ≤ (datagram.drop (headerLength datagram)).length := by
    rw [List.length_drop]
    omega
  refine ⟨header, datagram.drop (headerLength datagram), whole, taken, rest, ?_⟩
  rw [whole] at accepted
  rw [header.parseAdvertisement_append rest] at accepted
  by_contra unchecked
  rw [if_neg (fun conditions => unchecked conditions.2.2.2.2)] at accepted
  cases accepted

/-- The header with one bit of its source address flipped. -/
def Ipv4Header.flipSrc (header : Ipv4Header) (place bit : Nat) : Ipv4Header where
  bytes := flipAt (12 + place) bit header.bytes
  long := header.long.trans_eq (flipAt_length ..).symm
  ihl := by
    have apart : (flipAt (12 + place) bit header.bytes).getD 0 0 = header.bytes.getD 0 0 := by
      have other : 0 ≠ 12 + place := by omega
      rw [flipAt, List.getD_eq_getElem?_getD, List.getElem?_set_ne other.symm,
        List.getD_eq_getElem?_getD]
    rw [apart, flipAt_length, header.ihl]

theorem Ipv4Header.flipSrc_octets (header : Ipv4Header) {place : Nat} (inside : place < 4)
    (bit : Nat) : (header.flipSrc place bit).src.octets = flipAt place bit header.src.octets := by
  have within : 12 + place < header.bytes.length := by
    have long := header.long
    omega
  simp only [src, flipSrc, Ipv4Addr.octets, getD_flipAt within]
  obtain rfl | rfl | rfl | rfl : place = 0 ∨ place = 1 ∨ place = 2 ∨ place = 3 := by omega
  · rfl
  · rfl
  · rfl
  · rfl

/--
A datagram that is accepted is dropped when any one bit of its VRRP part or of
its IPv4 source address is flipped.
-/
theorem flipped_dropped {datagram : List UInt8} {ourVrid : UInt8} {index bit : Nat}
    (short : datagram.length ≤ 65535)
    (accepted : (parseAdvertisement datagram ourVrid).isSome = true)
    (covered : Covered datagram index) (low : bit < 8) :
    parseAdvertisement (flipAt index bit datagram) ourVrid = none := by
  obtain ⟨header, payload, rfl, length, least, checks⟩ := exists_header_of_accepted accepted
  have long := header.long
  rw [List.length_append] at short
  have few : payload.length ≤ 65515 := by omega
  rcases covered with ⟨after, before⟩ | ⟨behind, inside⟩
  · obtain ⟨place, rfl⟩ := Nat.exists_eq_add_of_le after
    have inside : place < 4 := by omega
    have moved : flipAt (12 + place) bit (header.bytes ++ payload) =
        (header.flipSrc place bit).bytes ++ payload :=
      flipAt_append_left (by omega) bit payload
    rw [moved, Ipv4Header.parseAdvertisement_append _ least]
    refine if_neg fun conditions => ?_
    exact checksum_flip_src few inside low (header.flipSrc_octets inside bit) checks
      conditions.2.2.2.2
  · rw [← length] at behind
    rw [List.length_append] at inside
    rw [flipAt_append_right behind, header.parseAdvertisement_append (by rwa [flipAt_length])]
    refine if_neg fun conditions => ?_
    exact checksum_flip_payload few (by omega) low checks conditions.2.2.2.2

/-- An advertisement of one address behind a header with a router alert. -/
def alerted : List UInt8 :=
  routerAlert.bytes ++ encodeAdvertisement 51 200 100 [⟨192, 168, 8, 50⟩] routerAlert.src

theorem flipped_dropped_alerted : parseAdvertisement (flipAt 26 0 alerted) 51 = none :=
  flipped_dropped (by decide) (by decide +kernel) (.inr (by decide)) (by decide)

end StormLb.Vrrp
