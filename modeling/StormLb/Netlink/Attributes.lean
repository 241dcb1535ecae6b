import StormLb.Net.Addr
import StormLb.Netlink.Wire

/-!
# Attributes

An attribute is its length, its type and its data.  They follow one another up
to the end of the buffer, or to the first one whose length cannot be right.
-/

namespace StormLb.Netlink

open StormLb.Net StormLb.Checked

def rtmNewlink : UInt16 := 16
def rtmNewaddr : UInt16 := 20
def iflaAddress : UInt16 := 1
def iflaIfname : UInt16 := 3
def ifaAddress : UInt16 := 1
def ifaLocal : UInt16 := 2
def afInet : UInt8 := 2

section

variable (e : Endian)

/-- An `ifaddrmsg` for a /32, then IFA_LOCAL and IFA_ADDRESS. -/
def addrPayload (index : UInt32) (ip : Ipv4Addr) : List UInt8 :=
  [afInet, 32, 0, 0] ++ e.toNeBytes32 index ++
    [ifaLocal, ifaAddress].flatMap fun ty => e.toNeBytes16 8 ++ e.toNeBytes16 ty ++ ip.octets

/-- What `attrs` returns: types and data. -/
abbrev Attrs : Type :=
  List (UInt16 × List UInt8)

/-- One turn of the loop of `attrs`, on what is left of the buffer and what was found. -/
def attrsTurn : List UInt8 × Attrs → Except Fault ((List UInt8 × Attrs) ⊕ Attrs)
  | (b, out) =>
    if 4 ≤ b.length then do
      let len := (← u16At e b 0).toNat
      if len < 4 ∨ b.length < len then return .inr out
      let ty := (← u16At e b 2) &&& 0x3fff
      let data ← slice b 4 len
      let rest ← sliceFrom b (min (align len) b.length)
      return .inl (rest, out ++ [(ty, data)])
    else return .inr out

/-- Every turn takes at least four bytes, so a turn for each is more than enough. -/
def attrs (b : List UInt8) : Except Fault Attrs :=
  rounds (attrsTurn e) (b.length + 1) (b, [])

/-- An interface: its index and hardware address. -/
structure Link where
  index : UInt32
  mac : Vector UInt8 6
  deriving DecidableEq, Repr

/-- What an attribute says of a link: whether the name is `name`, and the address. -/
def linkAttr (name : List UInt8) (seen : Bool × Vector UInt8 6) (attr : UInt16 × List UInt8) :
    Bool × Vector UInt8 6 :=
  if attr.1 = iflaIfname then (attr.2.takeWhile (· ≠ 0) == name, seen.2)
  else if six : attr.1 = iflaAddress ∧ attr.2.length = 6 then
    (seen.1, ⟨attr.2.toArray, six.2⟩)
  else seen

/-- The link of one message, if it is named `name`. -/
def parseLink (name : List UInt8) : UInt16 × List UInt8 → Except Fault (Option Link)
  | (ty, p) =>
    if ty ≠ rtmNewlink ∨ p.length < 16 then return none
    else do
      let index ← u32At e p 4
      let found ← attrs e (← sliceFrom p 16)
      let (found, mac) := found.foldl (linkAttr name) (false, .replicate 6 0)
      return if found then some ⟨index, mac⟩ else none

/-- The interface named `name` among RTM_NEWLINK messages. -/
def parseLinks (msgs : List (UInt16 × List UInt8)) (name : List UInt8) :
    Except Fault (Option Link) :=
  msgs.findSomeM? (parseLink e name)

/-- What an attribute says of an address: the local one, and the other end's. -/
def addrAttr (seen : Option Ipv4Addr × Option Ipv4Addr) (attr : UInt16 × List UInt8) :
    Option Ipv4Addr × Option Ipv4Addr :=
  match attr.2 with
  | [a, b, c, d] =>
      if attr.1 = ifaLocal then (some ⟨a, b, c, d⟩, seen.2)
      else if attr.1 = ifaAddress then (seen.1, some ⟨a, b, c, d⟩)
      else seen
  | _ => seen

/-- The IPv4 address of one message with its prefix length, if it is of interface `index`. -/
def parseAddr (index : UInt32) : UInt16 × List UInt8 → Except Fault (Option (Ipv4Addr × UInt8))
  | (ty, p) =>
    if ty ≠ rtmNewaddr ∨ p.length < 8 then return none
    else do
      if (← Checked.index p 0) ≠ afInet then return none
      if (← u32At e p 4) ≠ index then return none
      let found ← attrs e (← sliceFrom p 8)
      let (localAddr, address) := found.foldl addrAttr (none, none)
      match localAddr.or address with
      | some a => return some (a, ← Checked.index p 1)
      | none => return none

/-- The IPv4 addresses of interface `index` among RTM_NEWADDR messages, in order. -/
def parseAddrs (msgs : List (UInt16 × List UInt8)) (index : UInt32) :
    Except Fault (List (Ipv4Addr × UInt8)) :=
  msgs.foldlM (fun out message => do return out ++ (← parseAddr e index message).toList) []

/-! ## Any bytes -/

theorem attrsTurn_nearer (state : List UInt8 × Attrs) :
    (∃ next, attrsTurn e state = .ok (.inl next) ∧ next.1.length < state.1.length) ∨
      ∃ value, attrsTurn e state = .ok (.inr value) := by
  obtain ⟨b, out⟩ := state
  by_cases long : 4 ≤ b.length
  · obtain ⟨len, readLen⟩ := u16At_ok e (show 0 + 2 ≤ b.length by omega)
    obtain ⟨ty, readTy⟩ := u16At_ok e (show 2 + 2 ≤ b.length by omega)
    by_cases wrong : len.toNat < 4 ∨ b.length < len.toNat
    · right
      exact ⟨out, by simp [attrsTurn, long, readLen, wrong]⟩
    · left
      have aligned := le_align len.toNat
      have data := slice_ok (show 4 ≤ len.toNat by omega) (show len.toNat ≤ b.length by omega)
      have rest := sliceFrom_ok (Nat.min_le_right (align len.toNat) b.length)
      refine ⟨(b.drop (min (align len.toNat) b.length),
        out ++ [(ty &&& 0x3fff, (b.take len.toNat).drop 4)]), ?_, ?_⟩
      · simp only [attrsTurn, if_pos long, readLen, ok_bind, if_neg wrong, readTy, data, rest]
        rfl
      · simp only [List.length_drop]
        omega
  · right
    exact ⟨out, by simp [attrsTurn, long]⟩

/-- Arbitrary bytes are read to an end, and never out of range. -/
theorem attrs_ok (b : List UInt8) : ∃ found, attrs e b = .ok found :=
  rounds_ok (attrsTurn_nearer e) (Nat.lt_succ_self b.length)

theorem parseLink_ok (name : List UInt8) (message : UInt16 × List UInt8) :
    ∃ found, parseLink e name message = .ok found := by
  obtain ⟨ty, p⟩ := message
  by_cases other : ty ≠ rtmNewlink ∨ p.length < 16
  · exact ⟨none, by simp only [parseLink, if_pos other, pure_eq]⟩
  · obtain ⟨index, readIndex⟩ := u32At_ok e (show 4 + 4 ≤ p.length by omega)
    obtain ⟨found, read⟩ := attrs_ok e (p.drop 16)
    simp only [parseLink, if_neg other, readIndex, sliceFrom_ok (show 16 ≤ p.length by omega), read,
      ok_bind, pure_eq]
    exact ⟨_, rfl⟩

theorem parseAddr_ok (index : UInt32) (message : UInt16 × List UInt8) :
    ∃ found, parseAddr e index message = .ok found := by
  obtain ⟨ty, p⟩ := message
  by_cases other : ty ≠ rtmNewaddr ∨ p.length < 8
  · exact ⟨none, by simp only [parseAddr, if_pos other, pure_eq]⟩
  · obtain ⟨number, readIndex⟩ := u32At_ok e (show 4 + 4 ≤ p.length by omega)
    obtain ⟨found, read⟩ := attrs_ok e (p.drop 8)
    simp only [parseAddr, if_neg other, index_ok (show 0 < p.length by omega),
      index_ok (show 1 < p.length by omega), readIndex,
      sliceFrom_ok (show 8 ≤ p.length by omega), read, ok_bind, pure_eq]
    split_ifs
    · exact ⟨none, rfl⟩
    · exact ⟨none, rfl⟩
    · split
      · exact ⟨_, rfl⟩
      · exact ⟨none, rfl⟩

theorem parseLinks_ok (msgs : List (UInt16 × List UInt8)) (name : List UInt8) :
    ∃ found, parseLinks e msgs name = .ok found :=
  findSomeM_ok (parseLink_ok e name) msgs

theorem parseAddrs_ok (msgs : List (UInt16 × List UInt8)) (index : UInt32) :
    ∃ found, parseAddrs e msgs index = .ok found := by
  refine foldlM_ok (fun out message => ?_) msgs []
  obtain ⟨found, parsed⟩ := parseAddr_ok e index message
  exact ⟨out ++ found.toList, by rw [parsed]; rfl⟩

end

/-! ## The round trip -/

/-- An rtattr as it is sent: a type, the two flag bits among its 16, and data whose length fits. -/
structure Rtattr where
  ty : UInt16
  data : List UInt8
  /-- What fills it up to four bytes. -/
  padding : List UInt8
  short : data.length ≤ 65531
  padded : 4 + data.length + padding.length = align (4 + data.length)

namespace Rtattr

variable (e : Endian)

/-- Length, type and data. -/
def bare (a : Rtattr) : List UInt8 :=
  e.toNeBytes16 (4 + a.data.length).toUInt16 ++ (e.toNeBytes16 a.ty ++ a.data)

/-- Attributes one after another; the last one may go without its padding. -/
def encode (padLast : Bool) : List Rtattr → List UInt8
  | [] => []
  | a :: rest =>
      a.bare e ++ (if padLast || !rest.isEmpty then a.padding else []) ++ encode padLast rest

/-- What attributes say: their types without the flags, and their data. -/
def said (as : List Rtattr) : Attrs :=
  as.map fun a => (a.ty &&& 0x3fff, a.data)

variable {e}

@[simp] theorem bare_length (a : Rtattr) : (a.bare e).length = 4 + a.data.length := by
  simp only [bare, List.length_append, Endian.toNeBytes16_length]
  omega

theorem u16At_length (a : Rtattr) (rest : List UInt8) :
    u16At e (a.bare e ++ rest) 0 = .ok (4 + a.data.length).toUInt16 := by
  rw [bare, List.append_assoc]
  exact u16At_toNeBytes16 e _ _

theorem u16At_ty (a : Rtattr) (rest : List UInt8) : u16At e (a.bare e ++ rest) 2 = .ok a.ty := by
  have behind := u16At_append e (e.toNeBytes16 (4 + a.data.length).toUInt16)
    (e.toNeBytes16 a.ty ++ (a.data ++ rest)) 0
  rw [Endian.toNeBytes16_length, u16At_toNeBytes16] at behind
  rw [bare, List.append_assoc, List.append_assoc]
  exact behind

theorem bare_drop (a : Rtattr) : (a.bare e).drop 4 = a.data := by
  rw [bare, ← List.append_assoc, List.drop_append_of_le_length (by simp)]
  simp

/-- A turn reads one attribute and leaves what follows its padding. -/
theorem attrsTurn_bare (a : Rtattr) {fill rest : List UInt8} (out : Attrs)
    (filled : 4 + a.data.length + fill.length =
      min (align (4 + a.data.length)) (4 + a.data.length + fill.length + rest.length)) :
    attrsTurn e (a.bare e ++ fill ++ rest, out) =
      .ok (.inl (rest, out ++ [(a.ty &&& 0x3fff, a.data)])) := by
  have short := a.short
  have len : (4 + a.data.length).toUInt16.toNat = 4 + a.data.length := by
    rw [UInt16.toNat_ofNat']
    omega
  have total : (a.bare e ++ fill ++ rest).length =
      4 + a.data.length + fill.length + rest.length := by
    simp only [List.length_append, bare_length]
  have data : slice (a.bare e ++ fill ++ rest) 4 (4 + a.data.length) = .ok a.data := by
    have taken : (a.bare e ++ (fill ++ rest)).take (4 + a.data.length) = a.bare e :=
      List.take_left' a.bare_length
    rw [slice_ok (by omega) (by omega), List.append_assoc, taken, bare_drop]
  have left : sliceFrom (a.bare e ++ fill ++ rest)
      (min (align (4 + a.data.length)) (a.bare e ++ fill ++ rest).length) = .ok rest := by
    rw [sliceFrom_ok (Nat.min_le_right _ _), total, ← filled]
    exact congrArg Except.ok (List.drop_left' (by rw [List.length_append, bare_length]))
  have first := a.u16At_length (fill ++ rest) (e := e)
  have second := a.u16At_ty (fill ++ rest) (e := e)
  rw [← List.append_assoc] at first second
  have long : 4 ≤ (a.bare e ++ fill ++ rest).length := by omega
  have right : ¬ (4 + a.data.length < 4 ∨
      (a.bare e ++ fill ++ rest).length < 4 + a.data.length) := by
    omega
  simp only [attrsTurn, if_pos long, first, ok_bind, len, if_neg right, second, data, left]
  rfl

/-- From any turn on, the rest of the list is found. -/
theorem rounds_attrsTurn_encode (padLast : Bool) (as : List Rtattr) (out : Attrs) {turns : Nat}
    (enough : (encode e padLast as).length < turns) :
    rounds (attrsTurn e) turns (encode e padLast as, out) = .ok (out ++ said as) := by
  induction as generalizing out turns with
  | nil =>
      obtain ⟨turns, rfl⟩ := Nat.exists_eq_succ_of_ne_zero (Nat.ne_of_gt (Nat.zero_lt_of_lt enough))
      rw [said, List.map_nil, List.append_nil]
      exact rounds_leave rfl turns
  | cons a rest ih =>
      obtain ⟨turns, rfl⟩ := Nat.exists_eq_succ_of_ne_zero (Nat.ne_of_gt (Nat.zero_lt_of_lt enough))
      simp only [encode, List.length_append, bare_length] at enough
      rw [encode, rounds_again (attrsTurn_bare a out ?filled), ih _ (by omega), List.append_assoc]
      · rfl
      case filled =>
        have padded := a.padded
        have least := le_align (4 + a.data.length)
        cases rest with
        | cons next rest =>
            simp only [List.isEmpty_cons, Bool.not_false, Bool.or_true, if_true]
            omega
        | nil =>
            cases padLast with
            | true =>
                simp only [Bool.true_or, if_true]
                omega
            | false =>
                simp only [List.isEmpty_nil, Bool.not_true, Bool.or_self, Bool.false_eq_true,
                  if_false, List.length_nil, encode]
                omega

end Rtattr

/-- Whatever the flag bits of a type say, `attrs` reads past them. -/
theorem attrs_encodeRtattr (e : Endian) (padLast : Bool) (as : List Rtattr) :
    attrs e (Rtattr.encode e padLast as) = .ok (Rtattr.said as) :=
  Rtattr.rounds_attrsTurn_encode padLast as [] (Nat.lt_succ_self _)

/-- An attribute without flags: a type of 14 bits. -/
structure Attr extends Rtattr where
  plain : ty.toNat < 0x4000

namespace Attr

def encode (e : Endian) (padLast : Bool) (as : List Attr) : List UInt8 :=
  Rtattr.encode e padLast (as.map Attr.toRtattr)

/-- The two high bits of a type are flags. -/
theorem ty_masked (a : Attr) : a.ty &&& 0x3fff = a.ty := by
  have plain := a.plain
  rw [← UInt16.toNat_inj, UInt16.toNat_and]
  exact (Nat.and_two_pow_sub_one_eq_mod a.ty.toNat 14).trans (Nat.mod_eq_of_lt plain)

end Attr

/-- What is encoded is read back. -/
theorem attrs_encode (e : Endian) (padLast : Bool) (as : List Attr) :
    attrs e (Attr.encode e padLast as) = .ok (as.map fun a => (a.ty, a.data)) := by
  rw [Attr.encode, attrs_encodeRtattr, Rtattr.said, List.map_map]
  exact congrArg Except.ok (List.map_congr_left fun a _ => Prod.ext a.ty_masked rfl)

/-! ## Addresses -/

/-- An address as an attribute, which needs no padding. -/
def addrAttribute (ty : UInt16) (plain : ty.toNat < 0x4000) (ip : Ipv4Addr) : Attr where
  ty := ty
  data := ip.octets
  padding := []
  plain := plain
  short := (by decide : 4 ≤ 65531)
  padded := by simp [Ipv4Addr.octets, align]

/-- The two attributes of `addr_payload`. -/
def addrAttributes (ip : Ipv4Addr) : List Attr :=
  [addrAttribute ifaLocal (by decide) ip, addrAttribute ifaAddress (by decide) ip]

theorem addrPayload_eq (e : Endian) (index : UInt32) (ip : Ipv4Addr) :
    addrPayload e index ip =
      [afInet, 32, 0, 0] ++ (e.toNeBytes32 index ++ Attr.encode e true (addrAttributes ip)) := by
  simp [addrPayload, addrAttributes, Attr.encode, Rtattr.encode, Rtattr.bare, addrAttribute,
    Ipv4Addr.octets]

theorem addrPayload_length (e : Endian) (index : UInt32) (ip : Ipv4Addr) :
    (addrPayload e index ip).length = 24 := by
  simp [addrPayload, Ipv4Addr.octets]

theorem addrPayload_index (e : Endian) (index : UInt32) (ip : Ipv4Addr) :
    u32At e (addrPayload e index ip) 4 = .ok index := by
  rw [addrPayload_eq]
  exact (u32At_append e [afInet, 32, 0, 0] _ 0).trans (u32At_toNeBytes32 e index _)

theorem addrPayload_attrs (e : Endian) (index : UInt32) (ip : Ipv4Addr) :
    attrs e ((addrPayload e index ip).drop 8) =
      .ok [(ifaLocal, ip.octets), (ifaAddress, ip.octets)] := by
  rw [addrPayload_eq, ← List.append_assoc, List.drop_left' (by simp), attrs_encode]
  rfl

/-- The address of a message for interface `number`, which nothing but `number` asks for. -/
theorem parseAddr_addrPayload (e : Endian) (number wanted : UInt32) (ip : Ipv4Addr) :
    parseAddr e wanted (rtmNewaddr, addrPayload e number ip) =
      .ok (if number = wanted then some (ip, 32) else none) := by
  have family : Checked.index (addrPayload e number ip) 0 = .ok afInet := rfl
  have prefixLength : Checked.index (addrPayload e number ip) 1 = .ok 32 := rfl
  have long : ¬ (addrPayload e number ip).length < 8 := by
    rw [addrPayload_length]
    decide
  have rest := sliceFrom_ok (show 8 ≤ (addrPayload e number ip).length by
    rw [addrPayload_length]
    decide)
  simp only [parseAddr, long, or_false, family, prefixLength, addrPayload_index, rest,
    addrPayload_attrs, ok_bind, ne_eq, not_true_eq_false, if_false, pure_eq]
  by_cases same : number = wanted
  · rw [if_neg (not_not_intro same), if_pos same]
    rfl
  · rw [if_pos same, if_neg same]

theorem parseAddrs_addrPayload (e : Endian) (number wanted : UInt32) (ip : Ipv4Addr) :
    parseAddrs e [(rtmNewaddr, addrPayload e number ip)] wanted =
      .ok (if number = wanted then [(ip, 32)] else []) := by
  rw [parseAddrs, List.foldlM_cons, parseAddr_addrPayload]
  split_ifs
  · rfl
  · rfl

/-- Attributes in one byte order: written and read, malformed, and as an address. -/
structure AttributesRoundTrip (e : Endian) : Prop where
  read : ∀ (padLast : Bool) (as : List Attr),
    attrs e (Attr.encode e padLast as) = .ok (as.map fun a => (a.ty, a.data))
  harmless : ∀ b : List UInt8, ∃ found, attrs e b = .ok found
  links : ∀ (msgs : List (UInt16 × List UInt8)) (name : List UInt8),
    ∃ found, parseLinks e msgs name = .ok found
  addrs : ∀ (msgs : List (UInt16 × List UInt8)) (index : UInt32),
    ∃ found, parseAddrs e msgs index = .ok found
  address : ∀ (number wanted : UInt32) (ip : Ipv4Addr),
    parseAddrs e [(rtmNewaddr, addrPayload e number ip)] wanted =
      .ok (if number = wanted then [(ip, 32)] else [])

/-- In either byte order attributes round trip, and malformed ones are harmless. -/
theorem attributes_roundTrip (e : Endian) : AttributesRoundTrip e where
  read := attrs_encode e
  harmless := attrs_ok e
  links := parseLinks_ok e
  addrs := parseAddrs_ok e
  address := parseAddrs_addrPayload e

end StormLb.Netlink
