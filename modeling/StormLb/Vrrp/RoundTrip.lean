import StormLb.Net.OnesComplement
import StormLb.Vips.Spec
import StormLb.Vrrp.Loop

/-!
# What is sent is what is received

An advertisement behind any IPv4 header with TTL 255 parses to what was encoded,
for the router it was made for and for no other.
-/

namespace StormLb.Vrrp

open StormLb.Net

/-! ## The checksum in the arithmetic of one's-complement sums -/

theorem wordSum_toBeBytes (n : UInt16) : wordSum (toBeBytes n) = n.toNat := by
  have bound := n.toNat_lt
  simp only [toBeBytes, wordSum, UInt16.toNat_toUInt8, UInt16.toNat_div, UInt16.reduceToNat]
  omega

/-- While the sum fits, adding the words loses nothing. -/
theorem sumWords_toNat {sum : UInt32} {data : List UInt8}
    (fits : sum.toNat + wordSum data < 4294967296) :
    (sumWords sum data).toNat = sum.toNat + wordSum data := by
  fun_induction sumWords sum data with
  | case1 sum => rfl
  | case2 sum last =>
      have bound := last.toNat_lt
      simp only [wordSum] at fits
      simp only [UInt32.toNat_add, UInt32.toNat_mul, UInt8.toNat_toUInt32, UInt32.reduceToNat,
        wordSum]
      omega
  | case3 sum high low rest ih =>
      simp only [wordSum] at fits
      have word : (sum + (fromBeBytes high low).toUInt32).toNat =
          sum.toNat + (high.toNat * 256 + low.toNat) := by
        rw [UInt32.toNat_add, UInt16.toNat_toUInt32, fromBeBytes_toNat]
        omega
      rw [ih (by omega), word, wordSum]
      omega

theorem folded_foldCarries (passes : Nat) (sum : UInt32) :
    folded (foldCarries passes sum).toNat = folded sum.toNat := by
  induction passes generalizing sum with
  | zero => rfl
  | succ passes ih =>
      rw [foldCarries]
      split
      · rfl
      · have bound := sum.toNat_lt
        have carried : (sum % 65536 + sum / 65536).toNat =
            sum.toNat % 65536 + sum.toNat / 65536 := by
          simp only [UInt32.toNat_add, UInt32.toNat_mod, UInt32.toNat_div, UInt32.reduceToNat]
          omega
        rw [ih, carried, folded_carry]

theorem foldCarries_toNat (sum : UInt32) : (foldCarries 3 sum).toNat = folded sum.toNat := by
  rw [← folded_foldCarries 3 sum, folded_eq_self (foldCarries_lt sum)]

/-- The checksum is the complement of what is left of the sum. -/
theorem onesComplementChecksum_toNat {data : List UInt8} (fits : wordSum data < 4294967296) :
    (onesComplementChecksum data).toNat = 65535 - folded (wordSum data) := by
  have small : (foldCarries 3 (sumWords 0 data)).toNat = folded (wordSum data) := by
    rw [foldCarries_toNat, sumWords_toNat (by simpa using fits)]
    simp
  have le := folded_le (wordSum data)
  rw [onesComplementChecksum, UInt16.toNat_not, UInt32.toNat_toUInt16, small]
  simp only [UInt16.size]
  omega

/-- With the checksum in its place, the whole checks to zero. -/
theorem checksum_of_checksummed {front back : List UInt8} (even : front.length % 2 = 0)
    (fits : wordSum (front ++ [0, 0] ++ back) + 65535 < 4294967296) :
    onesComplementChecksum
      (front ++ toBeBytes (onesComplementChecksum (front ++ [0, 0] ++ back)) ++ back) = 0 := by
  have sum (word : List UInt8) (two : word.length = 2) :
      wordSum (front ++ word ++ back) = wordSum front + wordSum word + wordSum back := by
    rw [wordSum_append (by rw [List.length_append]; omega), wordSum_append even]
  have placeholder : wordSum (front ++ [0, 0] ++ back) = wordSum front + wordSum back := by
    rw [sum _ rfl]
    simp [wordSum]
  have small : wordSum (front ++ [0, 0] ++ back) < 4294967296 := by omega
  have complement := onesComplementChecksum_toNat small
  have whole : wordSum
      (front ++ toBeBytes (onesComplementChecksum (front ++ [0, 0] ++ back)) ++ back) =
        wordSum (front ++ [0, 0] ++ back) + (65535 - folded (wordSum (front ++ [0, 0] ++ back))) := by
    rw [sum _ rfl, wordSum_toBeBytes, complement, placeholder]
    omega
  rw [← UInt16.toNat_inj, onesComplementChecksum_toNat (by rw [whole]; omega), whole,
    folded_add_complement]
  rfl

/-! ## The advertisement -/

/-- What stands before the checksum. -/
def advertisementFront (vrid priority : UInt8) (advertIntervalCentis : UInt16)
    (vips : List Ipv4Addr) : List UInt8 :=
  [0x31, vrid, priority, vips.length.toUInt8] ++ toBeBytes (advertIntervalCentis &&& 0x0fff)

@[simp] theorem advertisementFront_length (vrid priority : UInt8) (advertIntervalCentis : UInt16)
    (vips : List Ipv4Addr) :
    (advertisementFront vrid priority advertIntervalCentis vips).length = 6 :=
  rfl

/-- What stands before the payload in the checksum. -/
def pseudoHeader (length : UInt16) (src : Ipv4Addr) : List UInt8 :=
  src.octets ++ vrrpMcast.octets ++ [0, ipprotoVrrp] ++ toBeBytes length

@[simp] theorem pseudoHeader_length (length : UInt16) (src : Ipv4Addr) :
    (pseudoHeader length src).length = 12 :=
  rfl

theorem encodeAdvertisement_eq (vrid priority : UInt8) (advertIntervalCentis : UInt16)
    (vips : List Ipv4Addr) (src : Ipv4Addr) :
    encodeAdvertisement vrid priority advertIntervalCentis vips src =
      advertisementFront vrid priority advertIntervalCentis vips ++
        toBeBytes (onesComplementChecksum (withPseudoHeader
          (advertisementFront vrid priority advertIntervalCentis vips ++ [0, 0] ++
            vips.flatMap Ipv4Addr.octets) src)) ++ vips.flatMap Ipv4Addr.octets :=
  rfl

theorem octets_length (vips : List Ipv4Addr) :
    (vips.flatMap Ipv4Addr.octets).length = 4 * vips.length := by
  induction vips with
  | nil => rfl
  | cons vip rest ih =>
      simp only [List.flatMap_cons, List.length_append, ih, List.length_cons, Ipv4Addr.octets,
        List.length_nil]
      omega

/-- Over the pseudo-header and the packet the sum checks to zero. -/
theorem checksum_encodeAdvertisement (vrid priority : UInt8) (advertIntervalCentis : UInt16)
    {vips : List Ipv4Addr} (few : vips.length ≤ 255) (src : Ipv4Addr) :
    onesComplementChecksum (withPseudoHeader
      (encodeAdvertisement vrid priority advertIntervalCentis vips src) src) = 0 := by
  have addresses := octets_length vips
  let length := (6 + (2 + 4 * vips.length)).toUInt16
  let front := pseudoHeader length src ++
    advertisementFront vrid priority advertIntervalCentis vips
  have whole (word : List UInt8) (two : word.length = 2) :
      withPseudoHeader (advertisementFront vrid priority advertIntervalCentis vips ++ word ++
        vips.flatMap Ipv4Addr.octets) src =
      front ++ word ++ vips.flatMap Ipv4Addr.octets := by
    simp only [withPseudoHeader, pseudoHeader, front, length, List.length_append, addresses, two,
      advertisementFront_length, List.append_assoc]
  have frontLength : front.length = 18 := rfl
  rw [encodeAdvertisement_eq, whole _ rfl, whole _ rfl]
  refine checksum_of_checksummed (by rw [frontLength]) ?_
  have bound := wordSum_le (front ++ [0, 0] ++ vips.flatMap Ipv4Addr.octets)
  simp only [List.length_append, frontLength, addresses, List.length_cons, List.length_nil] at bound
  omega

/-! ## The header -/

/-- An IPv4 header, as long as its first byte says. -/
structure Ipv4Header where
  bytes : List UInt8
  long : 20 ≤ bytes.length
  ihl : (bytes.getD 0 0 &&& 0x0f).toNat * 4 = bytes.length

namespace Ipv4Header

variable (header : Ipv4Header)

def ttl : UInt8 :=
  header.bytes.getD 8 0

def src : Ipv4Addr :=
  ⟨header.bytes.getD 12 0, header.bytes.getD 13 0, header.bytes.getD 14 0, header.bytes.getD 15 0⟩

theorem getD_append {i : Nat} (inside : i < 20) (payload : List UInt8) :
    (header.bytes ++ payload).getD i 0 = header.bytes.getD i 0 := by
  have within : i < header.bytes.length := Nat.lt_of_lt_of_le inside header.long
  rw [List.getD_eq_getElem?_getD, List.getElem?_append_left within, ← List.getD_eq_getElem?_getD]

/-- Behind a header, only its TTL, the payload's first bytes and the checksum count. -/
theorem parseAdvertisement_append {payload : List UInt8} (long : 8 ≤ payload.length)
    (ourVrid : UInt8) :
    parseAdvertisement (header.bytes ++ payload) ourVrid =
      if header.ttl = 255 ∧ payload.getD 0 0 >>> 4 = 3 ∧ payload.getD 0 0 &&& 0x0f = 1 ∧
          payload.getD 1 0 = ourVrid ∧
          onesComplementChecksum (withPseudoHeader payload header.src) = 0 then
        some
          { priority := payload.getD 2 0
            src := header.src
            intervalCentis := fromBeBytes (payload.getD 4 0) (payload.getD 5 0) &&& 0x0fff }
      else none := by
  have least := header.long
  have length : (header.bytes ++ payload).length = header.bytes.length + payload.length :=
    List.length_append
  have source : (⟨(header.bytes ++ payload).getD 12 0, (header.bytes ++ payload).getD 13 0,
      (header.bytes ++ payload).getD 14 0, (header.bytes ++ payload).getD 15 0⟩ : Ipv4Addr) =
        header.src := by
    simp only [header.getD_append (by decide : 12 < 20), header.getD_append (by decide : 13 < 20),
      header.getD_append (by decide : 14 < 20), header.getD_append (by decide : 15 < 20)]
    rfl
  have ttl : (header.bytes ++ payload).getD 8 0 = header.ttl := header.getD_append (by decide) payload
  simp only [parseAdvertisement, source, header.getD_append (by decide : 0 < 20), header.ihl, ttl,
    List.drop_left]
  rw [if_neg (by omega)]
  by_cases routed : header.ttl = 255
  · have whole : ¬ (header.bytes.length < 20 ∨
        (header.bytes ++ payload).length < header.bytes.length + 8 ∨ header.ttl ≠ 255) := by
      rintro (short | short | other)
      · omega
      · omega
      · exact other routed
    rw [if_neg whole]
    by_cases kind : payload.getD 0 0 >>> 4 = 3 ∧ payload.getD 0 0 &&& 0x0f = 1 ∧
        payload.getD 1 0 = ourVrid
    · obtain ⟨version, type, vrid⟩ := kind
      simp only [version, type, vrid, routed, ne_eq, not_true_eq_false, or_self, if_false, ite_not,
        true_and]
    · rw [if_pos (by tauto), if_neg (by tauto)]
  · rw [if_pos (.inr (.inr routed)), if_neg (by tauto)]

end Ipv4Header

/-! ## The round trip -/

/-- The low 12 bits of an interval. -/
theorem interval_masked (interval : UInt16) : interval &&& 0x0fff = interval % 4096 := by
  rw [← UInt16.toNat_inj, UInt16.toNat_and, UInt16.toNat_mod]
  exact Nat.and_two_pow_sub_one_eq_mod interval.toNat 12

theorem parse_encodeAdvertisement (header : Ipv4Header) (vrid priority : UInt8)
    (advertIntervalCentis : UInt16) {vips : List Ipv4Addr} (few : vips.length ≤ 255)
    (ourVrid : UInt8) :
    parseAdvertisement
        (header.bytes ++ encodeAdvertisement vrid priority advertIntervalCentis vips header.src)
        ourVrid =
      if header.ttl = 255 ∧ ourVrid = vrid then
        some { priority, src := header.src, intervalCentis := advertIntervalCentis % 4096 }
      else none := by
  have long : 8 ≤ (encodeAdvertisement vrid priority advertIntervalCentis vips header.src).length := by
    rw [encodeAdvertisement_eq]
    simp only [List.length_append, advertisementFront_length, toBeBytes_length]
    omega
  have interval : fromBeBytes
      ((encodeAdvertisement vrid priority advertIntervalCentis vips header.src).getD 4 0)
      ((encodeAdvertisement vrid priority advertIntervalCentis vips header.src).getD 5 0) =
        advertIntervalCentis &&& 0x0fff :=
    fromBeBytes_toBeBytes (advertIntervalCentis &&& 0x0fff)
  have masked : (advertIntervalCentis &&& 0x0fff) &&& 0x0fff = advertIntervalCentis % 4096 := by
    rw [interval_masked, interval_masked, ← UInt16.toNat_inj]
    simp
  have version : (encodeAdvertisement vrid priority advertIntervalCentis vips header.src).getD 0 0 =
      0x31 := rfl
  have sentVrid : (encodeAdvertisement vrid priority advertIntervalCentis vips header.src).getD 1 0 =
      vrid := rfl
  have sentPriority :
      (encodeAdvertisement vrid priority advertIntervalCentis vips header.src).getD 2 0 =
        priority := rfl
  rw [header.parseAdvertisement_append long, interval, version, sentVrid, sentPriority,
    checksum_encodeAdvertisement _ _ _ few, masked]
  refine if_congr ?_ rfl rfl
  constructor
  · rintro ⟨routed, _, _, same, _⟩
    exact ⟨routed, same.symm⟩
  · rintro ⟨routed, same⟩
    exact ⟨routed, by decide, by decide, same.symm, rfl⟩

/-- What a receiver behind this header makes of an advertisement of these addresses. -/
structure RoundTrips (header : Ipv4Header) (vips : List Ipv4Addr) : Prop where
  parsed : ∀ (vrid priority : UInt8) (advertIntervalCentis : UInt16) (ourVrid : UInt8),
    parseAdvertisement
        (header.bytes ++ encodeAdvertisement vrid priority advertIntervalCentis vips header.src)
        ourVrid =
      if header.ttl = 255 ∧ ourVrid = vrid then
        some { priority, src := header.src, intervalCentis := advertIntervalCentis % 4096 }
      else none
  ownInterval : ∀ (spec : Vips.VipSpec) (c : Vips.Checked) (v : Vips.VrrpSpec) (priority : UInt8),
    Vips.check spec = .ok c → spec.vrrp = some v → header.ttl = 255 →
      let own := (VirtualRouter.new v.vrid v.priority v.preempt
        v.advertIntervalSecs).advertIntervalCentis
      parseAdvertisement
          (header.bytes ++ encodeAdvertisement v.vrid priority own vips header.src) v.vrid =
        some { priority, src := header.src, intervalCentis := own }

/--
What is encoded is parsed again, for its own virtual router and with TTL 255
only; the interval is cut to 12 bits, which changes no accepted one.
-/
theorem advertisement_roundTrips (header : Ipv4Header) {vips : List Ipv4Addr}
    (few : vips.length ≤ 255) : RoundTrips header vips where
  parsed vrid priority advertIntervalCentis ourVrid :=
    parse_encodeAdvertisement header vrid priority advertIntervalCentis few ourVrid
  ownInterval spec c v priority checked owned routed := by
    obtain ⟨vip, _, _, accepted⟩ := Vips.vrrp_of_check checked owned
    have own := VirtualRouter.new_interval v.vrid v.priority v.preempt accepted.interval
    have most : v.advertIntervalSecs.toNat ≤ 40 :=
      UInt64.le_iff_toNat_le.mp accepted.interval.2
    have kept : (VirtualRouter.new v.vrid v.priority v.preempt
        v.advertIntervalSecs).advertIntervalCentis % 4096 =
          (VirtualRouter.new v.vrid v.priority v.preempt
            v.advertIntervalSecs).advertIntervalCentis := by
      simp only [← UInt16.toNat_inj, UInt16.toNat_mod, own, UInt16.reduceToNat]
      omega
    dsimp only
    rw [parse_encodeAdvertisement header _ _ _ few, if_pos ⟨routed, rfl⟩, kept]

/-- A header of 24 bytes, its option a router alert. -/
def routerAlert : Ipv4Header where
  bytes := [0x46, 0xc0, 0, 44, 0, 0, 0, 0, 255, 112, 0, 0, 192, 168, 8, 11, 224, 0, 0, 18,
    0x94, 0x04, 0, 0]
  long := by decide
  ihl := by decide

theorem advertisement_roundTrips_routerAlert :
    RoundTrips routerAlert [⟨192, 168, 8, 50⟩, ⟨192, 168, 8, 60⟩] :=
  advertisement_roundTrips routerAlert (by decide)

end StormLb.Vrrp
