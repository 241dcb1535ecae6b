import StormLb.Bgp.Framing

/-!
# UPDATE messages as RFC 4271 reads them

A decoder of the body of an UPDATE, written from the standard: withdrawn routes,
path attributes and reachable prefixes, each list to its end.  What the speaker
encodes says there what was meant.
-/

namespace StormLb.Bgp.Rfc4271

open StormLb.Net

/-! ## What an UPDATE says -/

/-- The bits of a byte, the most significant first. -/
def bits (b : UInt8) : List Bool :=
  (List.range 8).map fun i => b.toNat.testBit (7 - i)

/-- An address prefix, by its bits. -/
structure Prefix where
  bits : List Bool
  short : bits.length ≤ 32
  deriving DecidableEq

/-- The first bits of an address. -/
def Prefix.of (addr : Ipv4Addr) (length : Nat) (short : length ≤ 32) : Prefix where
  bits := (addr.octets.flatMap Rfc4271.bits).take length
  short := (List.length_take_le _ _).trans short

inductive Origin where
  | igp
  | egp
  | incomplete
  deriving DecidableEq, Repr

inductive SegmentType where
  | set
  | sequence
  deriving DecidableEq, Repr

structure PathSegment where
  type : SegmentType
  path : List UInt16
  deriving DecidableEq, Repr

inductive Attribute where
  | origin (origin : Origin)
  | asPath (segments : List PathSegment)
  | nextHop (addr : Ipv4Addr)
  | other (flags code : UInt8) (value : List UInt8)
  deriving DecidableEq, Repr

/-- The type code. -/
def Attribute.code : Attribute → UInt8
  | .origin _ => 1
  | .asPath _ => 2
  | .nextHop _ => 3
  | .other _ code _ => code

structure Update where
  withdrawn : List Prefix
  attributes : List Attribute
  nlri : List Prefix
  deriving DecidableEq

/-! ## The decoder -/

/-- A list of items to the end of the bytes, each item at least one byte. -/
def many {β : Type} (one : List UInt8 → Option (β × List UInt8)) :
    Nat → List UInt8 → Option (List β)
  | _, [] => some []
  | 0, _ => none
  | fuel + 1, bytes => do
      let (item, rest) ← one bytes
      let more ← many one fuel rest
      return item :: more

/-- So many bytes, and the rest. -/
def cut (n : Nat) (bytes : List UInt8) : Option (List UInt8 × List UInt8) :=
  if n ≤ bytes.length then some (bytes.take n, bytes.drop n) else none

/-- As many bytes as two bytes before them say. -/
def counted : List UInt8 → Option (List UInt8 × List UInt8)
  | high :: low :: rest => cut (fromBeBytes high low).toNat rest
  | _ => none

def decodePrefix : List UInt8 → Option (Prefix × List UInt8)
  | [] => none
  | length :: rest =>
      if short : length.toNat ≤ 32 then do
        let (octets, rest) ← cut ((length.toNat + 7) / 8) rest
        let first : Prefix :=
          ⟨(octets.flatMap bits).take length.toNat, (List.length_take_le _ _).trans short⟩
        return (first, rest)
      else none

/-- Two bytes each. -/
def numbers : List UInt8 → List UInt16
  | high :: low :: rest => fromBeBytes high low :: numbers rest
  | _ => []

/-- A path segment: its type, how many autonomous systems, and these. -/
def decodeSegment : List UInt8 → Option (PathSegment × List UInt8)
  | type :: count :: rest => do
      let type ← if type = 1 then some SegmentType.set
        else if type = 2 then some .sequence else none
      let (path, rest) ← cut (2 * count.toNat) rest
      return (⟨type, numbers path⟩, rest)
  | _ => none

/-- Not optional, transitive, not partial. -/
def wellKnown (flags : UInt8) : Bool :=
  flags.toNat / 32 = 2

/-- The value of an attribute, by its type code. -/
def decodeValue (flags code : UInt8) (value : List UInt8) : Option Attribute :=
  if code = 1 ∨ code = 2 ∨ code = 3 then
    if wellKnown flags = false then none
    else if code = 1 then
      if value = [0] then some (.origin .igp)
      else if value = [1] then some (.origin .egp)
      else if value = [2] then some (.origin .incomplete)
      else none
    else if code = 2 then (many decodeSegment value.length value).map .asPath
    else
      match value with
      | [a, b, c, d] => some (.nextHop ⟨a, b, c, d⟩)
      | _ => none
  else some (.other flags code value)

/-- An attribute: flags, type code, a length of one byte or (by a flag) two, and the value. -/
def decodeAttribute : List UInt8 → Option (Attribute × List UInt8)
  | flags :: code :: rest => do
      let (value, rest) ←
        if flags.toNat.testBit 4 then counted rest
        else
          match rest with
          | length :: rest => cut length.toNat rest
          | [] => none
      return (← decodeValue flags code value, rest)
  | _ => none

/-- No attribute twice, and the mandatory ones where routes are announced. -/
def Update.WellFormed (update : Update) : Prop :=
  (update.attributes.map Attribute.code).Nodup ∧
    (update.nlri = [] ∨ ∀ code ∈ [1, 2, 3], code ∈ update.attributes.map Attribute.code)

instance (update : Update) : Decidable update.WellFormed :=
  inferInstanceAs (Decidable (_ ∧ (_ ∨ ∀ code ∈ [1, 2, 3], _)))

def decodeUpdate (body : List UInt8) : Option Update := do
  let (withdrawn, rest) ← counted body
  let (attributes, nlri) ← counted rest
  let update : Update :=
    { withdrawn := ← many decodePrefix withdrawn.length withdrawn
      attributes := ← many decodeAttribute attributes.length attributes
      nlri := ← many decodePrefix nlri.length nlri }
  if update.WellFormed then some update else none

/-! ## What the speaker encodes -/

theorem bits_length (octets : List UInt8) : (octets.flatMap bits).length = 8 * octets.length := by
  induction octets with
  | nil => rfl
  | cons b rest ih =>
      rw [List.flatMap_cons, List.length_append, ih, List.length_cons, bits, List.length_map,
        List.length_range]
      omega

theorem cut_append {n : Nat} {front rest : List UInt8} (long : front.length = n) :
    cut n (front ++ rest) = some (front, rest) := by
  rw [cut, if_pos (by rw [List.length_append]; omega), List.take_left' long, List.drop_left' long]

theorem counted_append {front rest : List UInt8} (short : front.length < 65536) :
    counted (toBeBytes (UInt16.ofNat front.length) ++ (front ++ rest)) = some (front, rest) := by
  have field := fromBeBytes_toBeBytes (UInt16.ofNat front.length)
  change counted ((toBeBytes (UInt16.ofNat front.length)).getD 0 0 ::
    (toBeBytes (UInt16.ofNat front.length)).getD 1 0 :: (front ++ rest)) = _
  rw [counted, field, UInt16.toNat_ofNat', Nat.mod_eq_of_lt short]
  exact cut_append rfl

/-- The significant bytes hold the significant bits. -/
theorem take_bits (addr : Ipv4Addr) {length : Nat} (short : length ≤ 32) :
    ((addr.octets.take ((length + 7) / 8)).flatMap bits).take length =
      (addr.octets.flatMap bits).take length := by
  have octets : addr.octets.length = 4 := rfl
  have long : length ≤ ((addr.octets.take ((length + 7) / 8)).flatMap bits).length := by
    rw [bits_length, List.length_take]
    omega
  calc ((addr.octets.take ((length + 7) / 8)).flatMap bits).take length
      = ((addr.octets.take ((length + 7) / 8)).flatMap bits ++
          (addr.octets.drop ((length + 7) / 8)).flatMap bits).take length :=
        (List.take_append_of_le_length long).symm
    _ = (addr.octets.flatMap bits).take length := by
        rw [← List.flatMap_append, List.take_append_drop]

theorem encodePrefix_length_le (addr : Ipv4Addr) (length : UInt8) :
    (encodePrefix addr length).length ≤ 5 := by
  rw [encodePrefix, List.length_cons, List.length_take]
  exact Nat.succ_le_succ (Nat.min_le_right _ 4)

theorem decodePrefix_encode (addr : Ipv4Addr) {length : UInt8} (short : length.toNat ≤ 32) :
    decodePrefix (encodePrefix addr length) = some (Prefix.of addr length.toNat short, []) := by
  have size : (addr.octets.take ((length.toNat + 7) / 8)).length = (length.toNat + 7) / 8 := by
    rw [List.length_take, show addr.octets.length = 4 from rfl]
    omega
  have whole : cut ((length.toNat + 7) / 8) (addr.octets.take ((length.toNat + 7) / 8)) =
      some (addr.octets.take ((length.toNat + 7) / 8), []) := by
    have cutNil := @cut_append _ _ [] size
    rwa [List.append_nil] at cutNil
  rw [encodePrefix, decodePrefix, dif_pos short, whole]
  simp only [Prefix.of, ← take_bits addr short]
  rfl

/-- A list of one item. -/
theorem many_single {β : Type} {one : List UInt8 → Option (β × List UInt8)} {item : β}
    {bytes : List UInt8} {fuel : Nat} (nonempty : bytes ≠ [])
    (single : one bytes = some (item, [])) :
    many one (fuel + 1) bytes = some [item] := by
  cases bytes with
  | nil => exact absurd rfl nonempty
  | cons b rest =>
      simp [many, single]

theorem many_encodePrefix (addr : Ipv4Addr) {length : UInt8} (short : length.toNat ≤ 32) :
    many decodePrefix (encodePrefix addr length).length (encodePrefix addr length) =
      some [Prefix.of addr length.toNat short] :=
  many_single (by simp [encodePrefix]) (decodePrefix_encode addr short)

/-- What `update_announce` puts into its path attributes. -/
def announced (asn : UInt16) (nextHop : Ipv4Addr) : List Attribute :=
  [.origin .igp, .asPath [⟨.sequence, [asn]⟩], .nextHop nextHop]

def encodedAttributes (asn : UInt16) (nextHop : Ipv4Addr) : List UInt8 :=
  [0x40, 1, 1, 0] ++ [0x40, 2, 4, 2, 1] ++ toBeBytes asn ++ [0x40, 3, 4] ++ nextHop.octets

/-- A well-known attribute with a length of one byte. -/
theorem decodeAttribute_wellKnown {code : UInt8} {value rest : List UInt8} {decoded : Attribute}
    (short : value.length < 256) (values : decodeValue 0x40 code value = some decoded) :
    decodeAttribute (0x40 :: code :: UInt8.ofNat value.length :: (value ++ rest)) =
      some (decoded, rest) := by
  have size : (UInt8.ofNat value.length).toNat = value.length := by
    rw [UInt8.toNat_ofNat', Nat.mod_eq_of_lt short]
  rw [decodeAttribute, if_neg (by decide), size, cut_append rfl]
  simp [values]

theorem many_encodedAttributes (asn : UInt16) (nextHop : Ipv4Addr) :
    many decodeAttribute (encodedAttributes asn nextHop).length (encodedAttributes asn nextHop) =
      some (announced asn nextHop) := by
  have path : decodeValue 0x40 2 (2 :: 1 :: toBeBytes asn) =
      some (.asPath [⟨.sequence, [asn]⟩]) := by
    have asn : fromBeBytes ((asn / 256).toUInt8) asn.toUInt8 = asn := fromBeBytes_toBeBytes asn
    simp [decodeValue, wellKnown, toBeBytes, many, decodeSegment, cut, numbers, asn]
  have origin : decodeAttribute ([0x40, 1, 1, 0] ++ ([0x40, 2, 4, 2, 1] ++ toBeBytes asn ++
      ([0x40, 3, 4] ++ nextHop.octets))) =
        some (.origin .igp, [0x40, 2, 4, 2, 1] ++ toBeBytes asn ++ ([0x40, 3, 4] ++
          nextHop.octets)) := by
    exact @decodeAttribute_wellKnown 1 [0] _ _ (by decide) rfl
  have asPath : decodeAttribute ([0x40, 2, 4, 2, 1] ++ toBeBytes asn ++ ([0x40, 3, 4] ++
      nextHop.octets)) = some (.asPath [⟨.sequence, [asn]⟩], [0x40, 3, 4] ++ nextHop.octets) := by
    exact @decodeAttribute_wellKnown 2 (2 :: 1 :: toBeBytes asn) _ _ (by simp) path
  have nextHops : decodeAttribute ([0x40, 3, 4] ++ nextHop.octets) =
      some (.nextHop nextHop, []) := by
    have last := @decodeAttribute_wellKnown 3 nextHop.octets [] _ (by simp [Ipv4Addr.octets]) rfl
    rwa [List.append_nil] at last
  have whole : encodedAttributes asn nextHop = [0x40, 1, 1, 0] ++ ([0x40, 2, 4, 2, 1] ++
      toBeBytes asn ++ ([0x40, 3, 4] ++ nextHop.octets)) := by
    simp [encodedAttributes]
  rw [whole]
  simp only [List.cons_append, List.nil_append] at origin asPath nextHops ⊢
  simp [many, origin, asPath, nextHops, announced]

/-- An UPDATE body: the withdrawn routes, the attributes, and the reachable prefixes. -/
theorem decodeUpdate_body {withdrawn attributes nlri : List UInt8} {update : Update}
    (few : withdrawn.length < 65536) (fewer : attributes.length < 65536)
    (first : many decodePrefix withdrawn.length withdrawn = some update.withdrawn)
    (second : many decodeAttribute attributes.length attributes = some update.attributes)
    (third : many decodePrefix nlri.length nlri = some update.nlri) (whole : update.WellFormed) :
    decodeUpdate (toBeBytes (UInt16.ofNat withdrawn.length) ++ (withdrawn ++
      (toBeBytes (UInt16.ofNat attributes.length) ++ (attributes ++ nlri)))) = some update := by
  simp [decodeUpdate, counted_append few, counted_append fewer, first, second, third, whole]

theorem encodedAttributes_length (asn : UInt16) (nextHop : Ipv4Addr) :
    (encodedAttributes asn nextHop).length = 18 := by
  simp [encodedAttributes, Ipv4Addr.octets]

theorem drop_message (t : UInt8) (body : List UInt8) : (message t body).drop 19 = body :=
  List.drop_left' (header_length (t, body))

/-- What the body of `update_announce` says. -/
theorem decodeUpdate_announce (asn : UInt16) (nextHop vip : Ipv4Addr) {length : UInt8}
    (short : length.toNat ≤ 32) :
    decodeUpdate ((updateAnnounce asn nextHop vip length).drop 19) =
      some ⟨[], announced asn nextHop, [Prefix.of vip length.toNat short]⟩ := by
  have few : (encodedAttributes asn nextHop).length < 65536 := by
    rw [encodedAttributes_length]
    decide
  have decoded := @decodeUpdate_body [] (encodedAttributes asn nextHop) (encodePrefix vip length)
    ⟨[], announced asn nextHop, [Prefix.of vip length.toNat short]⟩ (by decide) few rfl
    (many_encodedAttributes asn nextHop) (many_encodePrefix vip short)
    ⟨by simp [announced, Attribute.code], .inr (by simp [announced, Attribute.code])⟩
  rw [updateAnnounce, drop_message, ← decoded]
  simp [encodedAttributes]

/-- What the body of `update_withdraw` says. -/
theorem decodeUpdate_withdraw (vip : Ipv4Addr) {length : UInt8} (short : length.toNat ≤ 32) :
    decodeUpdate ((updateWithdraw vip length).drop 19) =
      some ⟨[Prefix.of vip length.toNat short], [], []⟩ := by
  have few : (encodePrefix vip length).length < 65536 :=
    Nat.lt_of_le_of_lt (encodePrefix_length_le vip length) (by decide)
  have decoded := @decodeUpdate_body (encodePrefix vip length) [] []
    ⟨[Prefix.of vip length.toNat short], [], []⟩ few (by decide) (many_encodePrefix vip short) rfl
    rfl ⟨List.nodup_nil, .inl rfl⟩
  rw [updateWithdraw, drop_message, ← decoded]
  simp

/-- An OPEN is accepted by its own autonomous system. -/
theorem checkOpen_openMsg (asn hold : UInt16) (bgpId : Ipv4Addr) (allowed : hold = 0 ∨ 3 ≤ hold) :
    checkOpen ((openMsg asn hold bgpId).drop 19) asn.toUInt32 = .ok hold := by
  have own : fromBeBytes ((asn / 256).toUInt8) asn.toUInt8 = asn := fromBeBytes_toBeBytes asn
  have offers : fromBeBytes ((hold / 256).toUInt8) hold.toUInt8 = hold := fromBeBytes_toBeBytes hold
  have neither : ¬ (hold = 1 ∨ hold = 2) := by
    rcases allowed with rfl | least
    · decide
    · rintro (rfl | rfl)
      · exact absurd least (by decide)
      · exact absurd least (by decide)
  rw [openMsg, drop_message]
  simp [toBeBytes, Ipv4Addr.octets, checkOpen, own, offers, neither]

/--
Messages are read back as they were sent, wherever the stream is cut; the UPDATEs
say by the standard what was meant; and an OPEN is accepted.
-/
theorem messages_decode :
    (∀ (msgs : List Msg) (s : Segments UInt8) (rounds : Nat), (∀ m ∈ msgs, m.2.length ≤ 4077) →
      (s.items = msgs.flatMap fun m => message m.1 m.2) → msgs.length < rounds →
        reader rounds s = msgs.map .ok ++ [.error "peer closed"]) ∧
    (∀ (asn : UInt16) (nextHop vip : Ipv4Addr) (length : UInt8) (short : length.toNat ≤ 32),
      decodeUpdate ((updateAnnounce asn nextHop vip length).drop 19) =
        some ⟨[], [.origin .igp, .asPath [⟨.sequence, [asn]⟩], .nextHop nextHop],
          [Prefix.of vip length.toNat short]⟩) ∧
    (∀ (vip : Ipv4Addr) (length : UInt8) (short : length.toNat ≤ 32),
      decodeUpdate ((updateWithdraw vip length).drop 19) =
        some ⟨[Prefix.of vip length.toNat short], [], []⟩) ∧
    (∀ (asn hold : UInt16) (bgpId : Ipv4Addr), hold = 0 ∨ 3 ≤ hold →
      checkOpen ((openMsg asn hold bgpId).drop 19) asn.toUInt32 = .ok hold) := by
  refine ⟨fun msgs s rounds short items enough => ?_, fun asn nextHop vip length short => ?_,
    fun vip length short => ?_, fun asn hold bgpId allowed => ?_⟩
  · exact reader_messages short items enough
  · exact decodeUpdate_announce asn nextHop vip short
  · exact decodeUpdate_withdraw vip short
  · exact checkOpen_openMsg asn hold bgpId allowed

/-- A stream that arrives byte by byte. -/
def byteByByte (bytes : List UInt8) : Segments UInt8 where
  parts := bytes.map fun b => [b]
  nonempty := by
    intro part member
    obtain ⟨b, _, rfl⟩ := List.mem_map.mp member
    exact List.cons_ne_nil _ _

-- A KEEPALIVE and a NOTIFICATION, the announcement of a /20, and an OPEN with a hold time of 90 s.
theorem messages_decode_keepalive :
    reader 3 (byteByByte (keepaliveMsg ++ notificationMsg 6 2)) =
        [.ok (typeKeepalive, []), .ok (typeNotification, [6, 2]), .error "peer closed"] ∧
      decodeUpdate ((updateAnnounce 64512 ⟨10, 0, 0, 1⟩ ⟨172, 16, 240, 0⟩ 20).drop 19) =
        some ⟨[], announced 64512 ⟨10, 0, 0, 1⟩, [Prefix.of ⟨172, 16, 240, 0⟩ 20 (by decide)]⟩ ∧
      decodeUpdate ((updateWithdraw ⟨172, 16, 240, 0⟩ 20).drop 19) =
        some ⟨[Prefix.of ⟨172, 16, 240, 0⟩ 20 (by decide)], [], []⟩ ∧
      checkOpen ((openMsg 64512 90 ⟨10, 0, 0, 1⟩).drop 19) 64512 = .ok 90 := by
  obtain ⟨reads, announces, withdraws, accepts⟩ := messages_decode
  refine ⟨?_, announces _ _ _ 20 (by decide), withdraws _ 20 (by decide),
    accepts 64512 90 _ (.inr (by decide))⟩
  exact reads [(typeKeepalive, []), (typeNotification, [6, 2])] _ 3 (by decide) (by decide)
    (by decide)

end StormLb.Bgp.Rfc4271
