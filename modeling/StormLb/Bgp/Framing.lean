import StormLb.Bgp.Message
import StormLb.Net.Segments

/-!
# Reading messages off the stream

`read_msg` takes the 19 bytes of the header and then as many as its length field
says.  Encoded messages are read back one by one, wherever the stream is cut.
-/

namespace StormLb.Bgp

open StormLb.Net

/-- One message from the peer: its type and its body. -/
abbrev Msg := UInt8 × List UInt8

def readMsg (s : Segments UInt8) : Except String (Msg × Segments UInt8) :=
  match s.readExact 19 with
  | none => .error "peer closed"
  | some (hdr, s) =>
      if hdr.take 16 ≠ List.replicate 16 0xff then .error "bad marker"
      else
        let len := (fromBeBytes (hdr.getD 16 0) (hdr.getD 17 0)).toNat
        if ¬ (19 ≤ len ∧ len ≤ 4096) then .error s!"bad message length {len}"
        else
          match s.readExact (len - 19) with
          | none => .error "short read"
          | some (body, s) => .ok ((hdr.getD 18 0, body), s)

/-- What the reader sends into its channel in so many rounds; an error is the last. -/
def reader : Nat → Segments UInt8 → List (Except String Msg)
  | 0, _ => []
  | rounds + 1, s =>
      match readMsg s with
      | .ok (m, s) => .ok m :: reader rounds s
      | .error error => [.error error]

/-! ## Back from the stream -/

/-- The header of a message. -/
def header (m : Msg) : List UInt8 :=
  List.replicate 16 0xff ++ toBeBytes (UInt16.ofNat (19 + m.2.length)) ++ [m.1]

theorem message_eq (m : Msg) : message m.1 m.2 = header m ++ m.2 :=
  rfl

@[simp] theorem header_length (m : Msg) : (header m).length = 19 := by
  simp [header]

theorem header_len {m : Msg} (short : m.2.length ≤ 4077) :
    (fromBeBytes ((header m).getD 16 0) ((header m).getD 17 0)).toNat = 19 + m.2.length := by
  have field := fromBeBytes_toBeBytes (UInt16.ofNat (19 + m.2.length))
  change (fromBeBytes ((toBeBytes (UInt16.ofNat (19 + m.2.length))).getD 0 0)
    ((toBeBytes (UInt16.ofNat (19 + m.2.length))).getD 1 0)).toNat = _
  rw [field, UInt16.toNat_ofNat', Nat.mod_eq_of_lt]
  omega

/-- The next message of the stream is read, and nothing of what follows. -/
theorem readMsg_message {m : Msg} {s : Segments UInt8} {rest : List UInt8}
    (short : m.2.length ≤ 4077) (items : s.items = message m.1 m.2 ++ rest) :
    ∃ left, readMsg s = .ok (m, left) ∧ left.items = rest := by
  rw [message_eq, List.append_assoc] at items
  have first : (header m ++ (m.2 ++ rest)).take 19 = header m :=
    List.take_left' (header_length m)
  have then' : (header m ++ (m.2 ++ rest)).drop 19 = m.2 ++ rest :=
    List.drop_left' (header_length m)
  obtain ⟨body, readHeader, bodyItems⟩ := s.readExact_eq_some (n := 19) (by
    rw [items, List.length_append, header_length]
    exact Nat.le_add_right _ _)
  rw [items, first] at readHeader
  rw [items, then'] at bodyItems
  obtain ⟨left, readBody, leftItems⟩ := body.readExact_eq_some (n := m.2.length) (by
    rw [bodyItems, List.length_append]
    exact Nat.le_add_right _ _)
  rw [bodyItems, List.take_left] at readBody
  refine ⟨left, ?_, by rw [leftItems, bodyItems, List.drop_left]⟩
  have marker : (header m).take 16 = List.replicate 16 0xff := rfl
  have long : 19 ≤ 19 + m.2.length ∧ 19 + m.2.length ≤ 4096 := by omega
  unfold readMsg
  rw [readHeader]
  dsimp only
  rw [header_len short, if_neg (not_not.mpr marker), if_neg (not_not.mpr long),
    Nat.add_sub_cancel_left, readBody]
  rfl

theorem readMsg_closed {s : Segments UInt8} (ended : s.items = []) :
    readMsg s = .error "peer closed" := by
  have none := s.readExact_eq_none (n := 19) (by rw [ended]; decide)
  rw [readMsg, none]

/-- Every sequence of messages is read back, and then the end of the stream. -/
theorem reader_messages {msgs : List Msg} (short : ∀ m ∈ msgs, m.2.length ≤ 4077)
    {s : Segments UInt8} (items : s.items = msgs.flatMap fun m => message m.1 m.2)
    {rounds : Nat} (enough : msgs.length < rounds) :
    reader rounds s = msgs.map .ok ++ [.error "peer closed"] := by
  induction msgs generalizing s rounds with
  | nil =>
      cases rounds with
      | zero => cases enough
      | succ rounds =>
          rw [reader, readMsg_closed items]
          rfl
  | cons m rest ih =>
      cases rounds with
      | zero => cases enough
      | succ rounds =>
          obtain ⟨left, read, leftItems⟩ := readMsg_message (short m List.mem_cons_self) items
          have later := ih (fun m member => short m (List.mem_cons_of_mem _ member)) leftItems
            (Nat.lt_of_succ_lt_succ enough)
          rw [reader, read]
          dsimp only
          rw [later]
          rfl

end StormLb.Bgp
