import StormLb.Netlink.Commands

/-!
# A table of interfaces

The kernel with the least to it: it never refuses, shows one message a datagram
and puts a new address last.
-/

namespace StormLb.Netlink

open StormLb.Net StormLb.Checked StormLb.Effects

/-- The bounds of the kernel on a device: IFNAMSIZ and MAX_ADDR_LEN. -/
structure Device.Sized (d : Device) : Prop where
  name : d.name.length < 16
  hardware : ∀ hardware ∈ d.hardware, hardware.length ≤ 32

/-- Devices and addresses, as the kernel keeps them. -/
structure Interfaces where
  devices : List Device
  addrs : List IfAddr
  names : (devices.map Device.name).Nodup
  terminated : ∀ d ∈ devices, 0 ∉ d.name
  indices : (devices.map Device.index).Nodup
  distinct : addrs.Nodup
  sized : ∀ d ∈ devices, d.Sized

/-! ## What it sends -/

/-- An attribute holds no more than its length can tell. -/
def Rtattr.of (ty : UInt16) (data : List UInt8) : Rtattr where
  ty := ty
  data := data.take 65531
  padding := List.replicate (align (4 + (data.take 65531).length) - (4 + (data.take 65531).length)) 0
  short := List.length_take_le 65531 data
  padded := by
    rw [List.length_replicate]
    exact Nat.add_sub_cancel' (le_align _)

def Message.of (ty : UInt16) (body : List UInt8) : Message where
  ty := ty
  flags := 0
  seq := 1
  pid := 0
  body := body
  padding := List.replicate (align (16 + body.length) - (16 + body.length)) 0
  padded := by
    rw [List.length_replicate]
    exact Nat.add_sub_cancel' (le_align _)

section

variable (e : Endian)

/-- IFLA_DEVLINK_PORT, which holds attributes of its own and says so in its flags. -/
def iflaDevlinkPort : UInt16 :=
  0x803e

/-- The attributes of a device; a current kernel adds IFLA_DEVLINK_PORT to every one. -/
def Device.attributes (d : Device) : List Rtattr :=
  .of iflaIfname (d.name ++ [0]) :: .of iflaDevlinkPort [] :: d.hardware.toList.map (.of iflaAddress)

/-- A device as RTM_NEWLINK shows it. -/
def Device.message (d : Device) : Message :=
  .of rtmNewlink (List.replicate 4 (0 : UInt8) ++ e.toNeBytes32 d.index ++ List.replicate 8 0 ++
    Rtattr.encode e true d.attributes)

/-- An address as RTM_NEWADDR shows it. -/
def IfAddr.message (a : IfAddr) : Message :=
  .of rtmNewaddr ([afInet, a.prefixLen, 0, 0] ++ (e.toNeBytes32 a.index ++ Rtattr.encode e true
    [.of ifaAddress a.peer.octets, .of ifaLocal a.own.octets]))

/-- NLMSG_DONE, or the acknowledgement with an errno. -/
def done : Message :=
  .of nlmsgDone (e.toNeBytes32 0)

def ack (errno : Int32) : Message :=
  .of nlmsgError (e.toNeBytes32 (-errno).toUInt32)

/-- One message a datagram. -/
def packed (ms : List Message) (final : Message) : List (List Message) :=
  (ms ++ [final]).map fun m => [m]

end

variable {e : Endian}

theorem Message.encode_length_le (m : Message) : (m.encode e).length ≤ 16 + m.body.length + 3 := by
  have padded := m.padded
  simp only [Message.encode, Message.fields, List.length_append, Endian.toNeBytes16_length,
    Endian.toNeBytes32_length]
  unfold align at padded
  omega

theorem says_packed {ms : List Message} {final : Message} {errno : Int32}
    (small : ∀ m ∈ ms ++ [final], m.body.length ≤ 1024) (ends : EndsWith errno e final) :
    Says e ms errno (packed ms final) where
  small := by
    intro datagram member
    obtain ⟨m, inside, rfl⟩ := List.mem_map.mp member
    have short := small m inside
    have length := m.encode_length_le (e := e)
    rw [Message.datagram, List.flatMap_singleton]
    omega
  content := ⟨final, by rw [packed, ← List.flatMap_def, List.flatMap_singleton'], ends⟩

theorem ends_done : EndsWith 0 e (done e) where
  ends := ⟨rfl, .inl rfl⟩
  carries := rfl

theorem ends_ack (errno : Int32) : EndsWith errno e (ack e errno) where
  ends := ⟨rfl, .inr rfl⟩
  carries := by
    obtain ⟨a, b, c, d, bytes, same⟩ := e.fromNeBytes32_toNeBytes32 (-errno).toUInt32
    rw [ack, Message.of, bytes]
    rw [Message.errno, if_pos rfl]
    exact (congrArg UInt32.toInt32 same).trans (Int32.toInt32_toUInt32 _)

theorem Rtattr.encode_length_le (as : List Rtattr) (bound : Nat)
    (small : ∀ a ∈ as, a.data.length ≤ bound) :
    (Rtattr.encode e true as).length ≤ as.length * (bound + 7) := by
  induction as with
  | nil => simp [Rtattr.encode]
  | cons a rest ih =>
      obtain ⟨here, others⟩ := List.forall_mem_cons.mp small
      have padded := a.padded
      have rest := ih others
      simp only [Rtattr.encode, Bool.true_or, if_true, List.length_append, Rtattr.bare_length,
        List.length_cons]
      unfold align at padded
      rw [Nat.add_mul]
      omega

/-! ## What is shown -/

theorem Rtattr.dataOf_of (ty other : UInt16) (data : List UInt8) (rest : List Rtattr) :
    Rtattr.dataOf ty (.of other data :: rest) =
      if other &&& 0x3fff = ty then data.take 65531 :: Rtattr.dataOf ty rest
      else Rtattr.dataOf ty rest :=
  Rtattr.dataOf_cons ty (.of other data) rest

theorem Device.shows_message {d : Device} (sized : d.Sized) : ShowsDevice e d (d.message e) where
  ty := rfl
  seq := rfl
  body := by
    have named := sized.name
    refine ⟨_, true, _, rfl, by simp, ?_, ?_, ?_⟩
    · rw [List.append_assoc]
      exact (u32At_append e (List.replicate 4 0) _ 0).trans (u32At_toNeBytes32 e _ _)
    · have whole : (d.name ++ [0]).take 65531 = d.name ++ [0] :=
        List.take_of_length_le (by rw [List.length_append]; exact Nat.le_trans named (by decide))
      rw [Device.attributes, Rtattr.dataOf_of, if_pos (by decide), Rtattr.dataOf_of,
        if_neg (by decide), whole]
      cases d.hardware with
      | none => rfl
      | some hardware =>
          rw [Option.toList_some, List.map_singleton, Rtattr.dataOf_of, if_neg (by decide)]
          rfl
    · rw [Device.attributes, Rtattr.dataOf_of, if_neg (by decide), Rtattr.dataOf_of,
        if_neg (by decide)]
      cases shown : d.hardware with
      | none => rfl
      | some hardware =>
          have short := sized.hardware hardware shown
          rw [Option.toList_some, List.map_singleton, Rtattr.dataOf_of, if_pos (by decide)]
          exact congrArg (fun data => [data]) (List.take_of_length_le (by omega))

theorem Device.message_small {d : Device} (sized : d.Sized) : (d.message e).body.length ≤ 1024 := by
  have named := sized.name
  have attrs := Rtattr.encode_length_le (e := e) d.attributes 32 ?_
  · have few : d.hardware.toList.length ≤ 1 := by cases d.hardware <;> simp
    have count : d.attributes.length = d.hardware.toList.length + 2 := by
      simp [Device.attributes]
    rw [count] at attrs
    simp only [Device.message, Message.of, List.length_append, List.length_replicate,
      Endian.toNeBytes32_length]
    omega
  · simp only [Device.attributes, List.forall_mem_cons, List.forall_mem_map, Rtattr.of,
      List.length_take, List.length_append, List.length_singleton, List.length_nil,
      Option.mem_toList]
    refine ⟨by omega, by omega, fun hardware shown => ?_⟩
    have := sized.hardware hardware shown
    omega

theorem IfAddr.shows_message (a : IfAddr) : ShowsAddr e a (a.message e) where
  ty := rfl
  seq := rfl
  body := by
    refine ⟨0, 0, true, _, rfl, ?_, ?_⟩
    · rw [Rtattr.dataOf_of, if_neg (by decide), Rtattr.dataOf_of, if_pos (by decide)]
      rfl
    · rw [Rtattr.dataOf_of, if_pos (by decide), Rtattr.dataOf_of, if_neg (by decide)]
      exact fun _ peer => List.mem_singleton.mp peer

theorem IfAddr.message_small (a : IfAddr) : (a.message e).body.length ≤ 1024 := by
  have attrs := Rtattr.encode_length_le (e := e) [.of ifaAddress a.peer.octets,
    .of ifaLocal a.own.octets] 4 ?_
  · simp only [List.length_cons, List.length_nil] at attrs
    simp only [IfAddr.message, Message.of, List.length_append, List.length_cons, List.length_nil,
      Endian.toNeBytes32_length]
    omega
  · intro attr member
    simp only [List.mem_cons, List.not_mem_nil, or_false] at member
    rcases member with rfl | rfl <;> exact List.length_take_le' 65531 _

/-! ## The kernel -/

section

variable (e : Endian)

/-- The interface and the address that an address request is about. -/
def asked (request : List UInt8) : Option IfAddr :=
  match request.drop 20 with
  | a :: b :: c :: d :: _ :: _ :: _ :: _ :: w :: x :: y :: z :: _ =>
      some (.host (e.fromNeBytes32 a b c d) ⟨w, x, y, z⟩)
  | _ => none

theorem asked_addrPayload (ty flags : UInt16) (index : UInt32) (ip : Ipv4Addr) :
    asked e (nlMsg e ty flags 1 (addrPayload e index ip)) = some (.host index ip) := by
  obtain ⟨a, b, c, d, bytes, same⟩ := e.fromNeBytes32_toNeBytes32 index
  rw [addrPayload, bytes, ← same]
  cases e <;> rfl

theorem u16At_nlMsg (ty flags : UInt16) (payload : List UInt8) :
    u16At e (nlMsg e ty flags 1 payload) 4 = .ok ty := by
  simp only [nlMsg, List.append_assoc]
  have behind := u16At_append e (e.toNeBytes32 (16 + payload.length).toUInt32)
  rw [Endian.toNeBytes32_length] at behind
  exact (behind _ 0).trans (u16At_toNeBytes16 e _ _)

end

namespace Interfaces

/-- The same devices with other addresses. -/
def withAddrs (table : Interfaces) (addrs : List IfAddr) (distinct : addrs.Nodup) : Interfaces :=
  { table with addrs, distinct }

def add (table : Interfaces) (new : IfAddr) : List IfAddr :=
  if new ∈ table.addrs then table.addrs else table.addrs ++ [new]

theorem nodup_add (table : Interfaces) (new : IfAddr) : (table.add new).Nodup := by
  rw [add]
  split_ifs with there
  · exact table.distinct
  · exact List.nodup_append.mpr ⟨table.distinct, List.nodup_singleton new, by
      rintro a member b only rfl
      exact there (List.mem_singleton.mp only ▸ member)⟩

section

variable (e : Endian)

/-- An address request: what it comes to, and the addresses from then on. -/
def change (table : Interfaces) (ty : UInt16) (a : IfAddr) : Int32 × Interfaces :=
  if ty = rtmNewaddr then
    (if a ∈ table.addrs then eexist else 0, table.withAddrs (table.add a) (table.nodup_add a))
  else
    (if a ∈ table.addrs then 0 else eaddrnotavail,
      table.withAddrs (table.addrs.erase a) (table.distinct.erase a))

/-- What a request is answered; EINVAL to what is none. -/
def reply (table : Interfaces) (request : List UInt8) : Answer × Interfaces :=
  if u16At e request 4 = .ok rtmGetlink then
    (.ok (packed (table.devices.map (Device.message e)) (done e)), table)
  else if u16At e request 4 = .ok rtmGetaddr then
    (.ok (packed (table.addrs.map (IfAddr.message e)) (done e)), table)
  else
    match u16At e request 4, asked e request with
    | .ok ty, some a => (.ok (packed [] (ack e (table.change ty a).1)), (table.change ty a).2)
    | _, _ => (.ok (packed [] (ack e 22)), table)

theorem reply_getlink (table : Interfaces) : table.reply e (getlink e) =
    (.ok (packed (table.devices.map (Device.message e)) (done e)), table) := by
  rw [reply, getlink, u16At_nlMsg, if_pos rfl]

theorem reply_getaddr (table : Interfaces) : table.reply e (getaddr e) =
    (.ok (packed (table.addrs.map (IfAddr.message e)) (done e)), table) := by
  rw [reply, getaddr, u16At_nlMsg, if_neg (by decide), if_pos rfl]

theorem reply_newaddr (table : Interfaces) (index : UInt32) (ip : Ipv4Addr) :
    table.reply e (newaddr e index ip) =
      (.ok (packed [] (ack e (table.change rtmNewaddr (.host index ip)).1)),
        (table.change rtmNewaddr (.host index ip)).2) := by
  rw [reply, newaddr, u16At_nlMsg, asked_addrPayload, if_neg (by decide), if_neg (by decide)]

theorem reply_deladdr (table : Interfaces) (index : UInt32) (ip : Ipv4Addr) :
    table.reply e (deladdr e index ip) =
      (.ok (packed [] (ack e (table.change rtmDeladdr (.host index ip)).1)),
        (table.change rtmDeladdr (.host index ip)).2) := by
  rw [reply, deladdr, u16At_nlMsg, asked_addrPayload, if_neg (by decide), if_neg (by decide)]

theorem says_ack (errno : Int32) : Says e [] errno (packed [] (ack e errno)) :=
  says_packed (by
    intro m member
    obtain rfl := List.mem_singleton.mp member
    rw [ack, Message.of, Endian.toNeBytes32_length]
    decide) (ends_ack errno)

/-- A dump of what is shown one by one. -/
theorem dumped_packed {α : Type} {shows : α → Message → Prop} {message : α → Message}
    {as : List α} (each : ∀ a ∈ as, shows a (message a) ∧ (message a).body.length ≤ 1024) :
    Dumped e shows as (.ok (packed (as.map message) (done e))) := by
  refine .dumped (says_packed ?_ ends_done) ?_
  · intro m member
    rcases List.mem_append.mp member with inside | last
    · obtain ⟨a, present, rfl⟩ := List.mem_map.mp inside
      exact (each a present).2
    · obtain rfl := List.mem_singleton.mp last
      rw [done, Message.of, Endian.toNeBytes32_length]
      decide
  · rw [List.forall₂_map_right_iff, List.forall₂_same]
    exact fun a present => (each a present).1

/-- A table of interfaces is a kernel. -/
def kernel : Kernel e Interfaces where
  devices := devices
  addrs := addrs
  opens table := (.ok (), table)
  reply table request := table.reply e request
  names := names
  terminated := terminated
  indices := indices
  distinct := distinct
  opens_errno := nofun
  opens_same _ := ⟨rfl, rfl⟩
  getlink_same table := by rw [reply_getlink]; exact ⟨rfl, rfl⟩
  getlink_dumps table := by
    rw [reply_getlink]
    exact dumped_packed e fun d present =>
      ⟨Device.shows_message (table.sized d present), Device.message_small (table.sized d present)⟩
  getaddr_same table := by rw [reply_getaddr]; exact ⟨rfl, rfl⟩
  getaddr_dumps table := by
    rw [reply_getaddr]
    exact dumped_packed e fun a _ => ⟨a.shows_message, a.message_small⟩
  newaddr_devices table index ip := by rw [reply_newaddr]; rfl
  newaddr_adds table index ip := by
    rw [reply_newaddr]
    by_cases there : IfAddr.host index ip ∈ table.addrs
    · have added := Added.there (e := e) there (says_ack e eexist)
      simpa [change, add, withAddrs, there] using added
    · have added := Added.added (List.append_nil table.addrs).symm there (says_ack e 0)
      simpa [change, add, withAddrs, there] using added
  deladdr_devices table index ip := by rw [reply_deladdr]; rfl
  deladdr_deletes table index ip := by
    rw [reply_deladdr]
    by_cases there : IfAddr.host index ip ∈ table.addrs
    · obtain ⟨front, back, outside, between, erased⟩ := List.exists_erase_eq there
      have deleted := Deleted.deleted between (says_ack e 0)
      simpa [change, withAddrs, there, erased, rtmNewaddr, rtmDeladdr] using deleted
    · have gone := Deleted.gone (e := e) there (says_ack e eaddrnotavail)
      simpa [change, withAddrs, there, List.erase_of_not_mem there, rtmNewaddr, rtmDeladdr] using gone

end

end Interfaces

/-! ## Commands on one interface -/

/-- eth0, with an address of its own. -/
def eth0 : Interfaces where
  devices := [⟨2, [101, 116, 104, 48], some [2, 0, 0, 0, 0, 9]⟩]
  addrs := [⟨2, ⟨192, 168, 8, 10⟩, ⟨192, 168, 8, 10⟩, 24⟩]
  names := by decide
  terminated := by decide
  indices := by decide
  distinct := by decide
  sized := by
    intro d present
    obtain rfl := List.mem_singleton.mp present
    exact ⟨by decide, by decide⟩

end StormLb.Netlink
