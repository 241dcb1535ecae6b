import StormLb.Effects.Served
import StormLb.Net.Addr
import StormLb.Netlink.Request

/-!
# The answer to a request, whatever its packing

The kernel packs the messages of an answer into datagrams as it sees fit.  What
a request returns is a matter of the messages alone.
-/

namespace StormLb.Netlink

open StormLb.Net StormLb.Checked StormLb.Effects

/-- A netlink message, padded to four bytes. -/
structure Message where
  ty : UInt16
  flags : UInt16
  seq : UInt32
  pid : UInt32
  body : List UInt8
  padding : List UInt8
  padded : 16 + body.length + padding.length = align (16 + body.length)

namespace Message

variable (e : Endian)

/-- The fields after the length. -/
def fields (m : Message) : List UInt8 :=
  e.toNeBytes16 m.ty ++ (e.toNeBytes16 m.flags ++ (e.toNeBytes32 m.seq ++ e.toNeBytes32 m.pid))

def encode (m : Message) : List UInt8 :=
  e.toNeBytes32 (16 + m.body.length).toUInt32 ++ (m.fields e ++ (m.body ++ m.padding))

/-- The bytes of a datagram. -/
def datagram (ms : List Message) : List UInt8 :=
  ms.flatMap (encode e)

/-- The message ends the answer to request 1. -/
def Ends (m : Message) : Prop :=
  m.seq = 1 ∧ (m.ty = nlmsgDone ∨ m.ty = nlmsgError)

instance (m : Message) : Decidable m.Ends :=
  inferInstanceAs (Decidable (_ ∧ _))

/-- The number an NLMSG_ERROR carries; NLMSG_DONE carries none. -/
def errno (m : Message) : Int32 :=
  if m.ty = nlmsgError then
    match m.body with
    | a :: b :: c :: d :: _ => (e.fromNeBytes32 a b c d).toInt32
    | _ => 0
  else 0

/-- What a request returns on the message that ends it. -/
def result (m : Message) (out : Replies) : Except NlError Replies :=
  if m.errno e = 0 then .ok out else .error (.os (-m.errno e))

/-- The replies among messages, in order. -/
def replies (ms : List Message) : Replies :=
  (ms.filter fun m => m.seq = 1).map fun m => (m.ty, m.body)

/-- Message by message: the replies so far, or the result at the first message that ends. -/
def collect (out : Replies) : List Message → Replies ⊕ Except NlError Replies
  | [] => .inl out
  | m :: rest =>
      if m.Ends then .inr (m.result e out)
      else collect (out ++ replies [m]) rest

/-- What `nl_msg` writes is a message. -/
theorem nlMsg_eq (ty flags : UInt16) (seq : UInt32) (payload : List UInt8) :
    ∃ m : Message, m.ty = ty ∧ m.seq = seq ∧ m.body = payload ∧
      nlMsg e ty flags seq payload = m.encode e := by
  have padded : 16 + payload.length +
      (List.replicate (align (16 + payload.length) - (16 + payload.length)) (0 : UInt8)).length =
        align (16 + payload.length) := by
    rw [List.length_replicate]
    exact Nat.add_sub_cancel' (le_align _)
  refine ⟨⟨ty, flags ||| nlmFRequest, seq, 0, payload, _, padded⟩, rfl, rfl, rfl, ?_⟩
  simp only [nlMsg, encode, fields, List.append_assoc]

/-! ## The messages alone -/

variable {e}

/-- Where one list of messages ends and another begins makes no difference. -/
theorem collect_append (out : Replies) (first rest : List Message) :
    collect e out (first ++ rest) =
      match collect e out first with
      | .inl out => collect e out rest
      | .inr result => .inr result := by
  induction first generalizing out with
  | nil => rfl
  | cons m first ih =>
      rw [List.cons_append, collect, collect]
      split_ifs
      · rfl
      · exact ih _

theorem replies_cons (m : Message) (ms : List Message) :
    replies (m :: ms) = replies [m] ++ replies ms := by
  rw [replies, replies, replies, ← List.map_append, ← List.filter_append, List.singleton_append]

/-- Up to the first message that ends, and with that one's result. -/
theorem collect_of_find (out : Replies) {ms : List Message} {final : Message}
    (found : ms.find? (fun m => m.Ends) = some final) :
    collect e out ms = .inr (final.result e (out ++ replies (ms.takeWhile fun m => ¬ m.Ends))) := by
  induction ms generalizing out with
  | nil => cases found
  | cons m rest ih =>
      rw [collect]
      by_cases ends : m.Ends
      · rw [List.find?_cons_of_pos (by simpa using ends)] at found
        obtain rfl := Option.some.inj found
        rw [if_pos ends, List.takeWhile_cons_of_neg (by simpa using ends)]
        simp [replies]
      · rw [List.find?_cons_of_neg (by simpa using ends)] at found
        rw [if_neg ends, ih _ found, List.takeWhile_cons_of_pos (by simpa using ends),
          replies_cons m (rest.takeWhile _), List.append_assoc]

/-! ## A message in a datagram -/

@[simp] theorem fields_length (m : Message) : (m.fields e).length = 12 := by
  simp only [fields, List.length_append, Endian.toNeBytes16_length, Endian.toNeBytes32_length]

@[simp] theorem encode_length (m : Message) :
    (m.encode e).length = 16 + m.body.length + m.padding.length := by
  simp only [encode, List.length_append, Endian.toNeBytes32_length, fields_length]
  omega

variable (m : Message) (rest : List UInt8)

theorem encode_append :
    m.encode e ++ rest = e.toNeBytes32 (16 + m.body.length).toUInt32 ++
      (m.fields e ++ (m.body ++ (m.padding ++ rest))) := by
  simp only [encode, List.append_assoc]

/-- The fields of a header stand behind its length. -/
theorem fields_append (back : List UInt8) :
    m.fields e ++ back = e.toNeBytes16 m.ty ++
      (e.toNeBytes16 m.flags ++ (e.toNeBytes32 m.seq ++ (e.toNeBytes32 m.pid ++ back))) := by
  simp only [fields, List.append_assoc]

theorem u32At_length :
    u32At e (m.encode e ++ rest) 0 = .ok (16 + m.body.length).toUInt32 := by
  rw [encode_append]
  exact u32At_toNeBytes32 e _ _

theorem u16At_ty : u16At e (m.encode e ++ rest) 4 = .ok m.ty := by
  have behind := u16At_append e (e.toNeBytes32 (16 + m.body.length).toUInt32)
    (m.fields e ++ (m.body ++ (m.padding ++ rest))) 0
  rw [Endian.toNeBytes32_length, fields_append, u16At_toNeBytes16, ← fields_append] at behind
  rw [encode_append]
  exact behind

theorem u32At_seq : u32At e (m.encode e ++ rest) 8 = .ok m.seq := by
  have behind := u32At_append e
    (e.toNeBytes32 (16 + m.body.length).toUInt32 ++ (e.toNeBytes16 m.ty ++ e.toNeBytes16 m.flags))
    (e.toNeBytes32 m.seq ++ (e.toNeBytes32 m.pid ++ (m.body ++ (m.padding ++ rest)))) 0
  simp only [List.length_append, Endian.toNeBytes32_length, Endian.toNeBytes16_length,
    u32At_toNeBytes32, List.append_assoc] at behind
  rw [encode_append, fields_append]
  exact behind

theorem encode_body :
    ((m.encode e ++ rest).take (16 + m.body.length)).drop 16 = m.body := by
  have front : (e.toNeBytes32 (16 + m.body.length).toUInt32 ++ m.fields e).length = 16 := by
    rw [List.length_append, Endian.toNeBytes32_length, fields_length]
  rw [encode_append, ← List.append_assoc, ← List.append_assoc,
    List.take_left' (by rw [List.length_append, front]), List.drop_left' front]

/-- The number is read from the body as it stands. -/
theorem errorNumber_body (error : m.ty = nlmsgError) :
    errorNumber e m.body = .ok (m.errno e) := by
  rw [errno, if_pos error]
  split
  · rename_i a b c d back same
    rw [same, errorNumber, if_pos (by simp)]
    rfl
  · rename_i short
    rw [errorNumber, if_neg]
    · rfl
    · intro long
      match bytes : m.body, long with
      | a :: b :: c :: d :: back, _ => exact short a b c d back bytes

/-- A turn takes one message of the datagram. -/
theorem messageTurn_encode {m : Message} (rest : List UInt8) (out : Replies)
    (small : 16 + m.body.length < 2 ^ 32) :
    messageTurn e 1 (m.encode e ++ rest, out) =
      .ok (if m.Ends then .inr (.inr (m.result e out)) else .inl (rest, out ++ replies [m])) := by
  have padded := m.padded
  have len : (16 + m.body.length).toUInt32.toNat = 16 + m.body.length := by
    rw [UInt32.toNat_ofNat']
    omega
  have total : (m.encode e ++ rest).length =
      16 + m.body.length + m.padding.length + rest.length := by
    rw [List.length_append, encode_length]
  have body : slice (m.encode e ++ rest) 16 (16 + m.body.length) = .ok m.body := by
    rw [slice_ok (by omega) (by omega), encode_body]
  have left : sliceFrom (m.encode e ++ rest)
      (min (align (16 + m.body.length)) (m.encode e ++ rest).length) = .ok rest := by
    rw [sliceFrom_ok (Nat.min_le_right _ _), Nat.min_eq_left (by omega), ← padded]
    exact congrArg Except.ok (List.drop_left' m.encode_length)
  have long : 16 ≤ (m.encode e ++ rest).length := by omega
  have right : ¬ (16 + m.body.length < 16 ∨
      (m.encode e ++ rest).length < 16 + m.body.length) := by
    omega
  simp only [messageTurn, if_pos long, u32At_length, ok_bind, len, if_neg right, u16At_ty,
    u32At_seq, body, left]
  by_cases ours : m.seq = 1
  · rw [if_neg (not_not_intro ours)]
    by_cases done : m.ty = nlmsgDone
    · have number : m.errno e = 0 := if_neg (by rw [done]; decide)
      rw [if_pos done, if_pos ⟨ours, .inl done⟩, result, if_pos number]
      rfl
    · rw [if_neg done]
      by_cases error : m.ty = nlmsgError
      · rw [if_pos error, errorNumber_body m error, if_pos ⟨ours, .inr error⟩]
        rfl
      · have goesOn : ¬ m.Ends := fun ends => ends.2.elim done error
        have reply : replies [m] = [(m.ty, m.body)] := by simp [replies, ours]
        rw [if_neg error, if_neg goesOn, reply]
        rfl
  · have goesOn : ¬ m.Ends := fun ends => ours ends.1
    have reply : replies [m] = [] := by simp [replies, ours]
    rw [if_pos ours, if_neg goesOn, reply, List.append_nil]
    rfl

/-! ## Datagrams -/

@[simp] theorem datagram_cons (m : Message) (ms : List Message) :
    datagram e (m :: ms) = m.encode e ++ datagram e ms :=
  rfl

/-- The loop over a datagram collects its messages. -/
theorem rounds_messageTurn (ms : List Message) (out : Replies) {turns : Nat}
    (small : (datagram e ms).length ≤ 64 * 1024) (enough : (datagram e ms).length < turns) :
    rounds (messageTurn e 1) turns (datagram e ms, out) =
      .ok (collect e out ms) := by
  induction ms generalizing out turns with
  | nil =>
      obtain ⟨turns, rfl⟩ := Nat.exists_eq_succ_of_ne_zero (Nat.ne_of_gt (Nat.zero_lt_of_lt enough))
      exact rounds_leave rfl turns
  | cons m rest ih =>
      obtain ⟨turns, rfl⟩ := Nat.exists_eq_succ_of_ne_zero (Nat.ne_of_gt (Nat.zero_lt_of_lt enough))
      rw [datagram_cons, List.length_append, encode_length] at small enough
      have turn := messageTurn_encode (m := m) (e := e) (datagram e rest) out (by omega)
      rw [datagram_cons, collect]
      split_ifs at turn ⊢ with ends
      · exact rounds_leave turn turns
      · rw [rounds_again turn]
        exact ih _ (by omega) (by omega)

theorem messages_datagram {ms : List Message} (small : (datagram e ms).length ≤ 64 * 1024)
    (out : Replies) : messages e 1 (datagram e ms) out = .ok (collect e out ms) :=
  rounds_messageTurn ms out small (Nat.lt_succ_self _)

end Message

/-! ## The kernel's side -/

/-- What `recv` is still to return, call by call. -/
abbrev Queue : Type :=
  List (Except Int32 (List UInt8))

def eagain : Int32 := 11

/-- A socket that takes the request; a `recv` that waits in vain times out. -/
def Queue.answer (queue : Queue) : (op : NlOp) → op.Ans × Queue
  | .send _ => (.ok (), queue)
  | .recv capacity =>
      match queue with
      | [] => (.error eagain, [])
      | received :: queue => (received.map (List.take capacity), queue)

namespace Nl

variable (e : Endian)

/-- What `request` returns in so many rounds of its loop, when it returns. -/
def run (ty flags : UInt16) (payload : List UInt8) (rounds : Nat) (queue : Queue) :
    Option Result :=
  (serveRounds Queue.answer (replies e 1) rounds (request e ty flags payload) queue).map Prod.fst

variable {e}

/-- One datagram, through the loop. -/
theorem serve_replies {ms : List Message} (small : (Message.datagram e ms).length ≤ 64 * 1024)
    (out : Replies) (queue : Queue) :
    (replies e 1 out).serve Queue.answer (.ok (Message.datagram e ms) :: queue) =
      ((Message.collect e out ms).map id .ok, queue) := by
  have whole := List.take_of_length_le small
  rw [replies, Program.serve_call, Program.serve_done]
  change (received e 1 out (.ok ((Message.datagram e ms).take (64 * 1024))), queue) = _
  rw [whole, received, Message.messages_datagram small]
  cases Message.collect e out ms with
  | inl out => rfl
  | inr result => rfl

/-- Datagram after datagram: what the messages of all of them collect. -/
theorem serveRounds_replies {packing : List (List Message)} (later : Queue) {out : Replies}
    {ended : Except NlError Replies}
    (small : ∀ ms ∈ packing, (Message.datagram e ms).length ≤ 64 * 1024)
    (collected : Message.collect e out packing.flatten = .inr ended) {rounds : Nat}
    (enough : packing.length ≤ rounds) :
    ∃ queue, serveRounds Queue.answer (replies e 1) rounds (replies e 1 out)
      (packing.map (fun ms => .ok (Message.datagram e ms)) ++ later) =
        some (.ok ended, queue) := by
  induction packing generalizing out rounds with
  | nil => cases collected
  | cons ms rest ih =>
      obtain ⟨smallFirst, smallRest⟩ := List.forall_mem_cons.mp small
      obtain ⟨rounds, rfl⟩ : ∃ less, rounds = less + 1 := Nat.exists_eq_succ_of_ne_zero (by
        rw [List.length_cons] at enough
        omega)
      have served := serve_replies smallFirst out
        (rest.map (fun ms => .ok (Message.datagram e ms)) ++ later)
      rw [List.flatten_cons, Message.collect_append] at collected
      cases first : Message.collect e out ms with
      | inl more =>
          rw [first] at served collected
          rw [List.map_cons, List.cons_append, serveRounds_again served]
          exact ih smallRest collected (by simpa using enough)
      | inr result =>
          rw [first] at served collected
          obtain rfl := Sum.inr.inj collected
          rw [List.map_cons, List.cons_append, serveRounds_leave served]
          exact ⟨_, rfl⟩

theorem serve_request (ty flags : UInt16) (payload : List UInt8) (queue : Queue) :
    (request e ty flags payload).serve Queue.answer queue = (.inl [], queue) :=
  rfl

/-- A request takes one round to send, and one for each datagram at most. -/
theorem run_packing {packing : List (List Message)} {later : Queue} {final : Message}
    (small : ∀ ms ∈ packing, (Message.datagram e ms).length ≤ 64 * 1024)
    (found : packing.flatten.find? (fun m => m.Ends) = some final) (ty flags : UInt16)
    (payload : List UInt8) {rounds : Nat} (enough : packing.length < rounds) :
    run e ty flags payload rounds (packing.map (fun ms => .ok (Message.datagram e ms)) ++ later) =
      some (.ok (final.result e
        (Message.replies (packing.flatten.takeWhile fun m => ¬ m.Ends)))) := by
  obtain ⟨rounds, rfl⟩ := Nat.exists_eq_succ_of_ne_zero (Nat.ne_of_gt (Nat.zero_lt_of_lt enough))
  obtain ⟨queue, served⟩ := serveRounds_replies later small (Message.collect_of_find [] found)
    (Nat.le_of_lt_succ enough)
  rw [run, serveRounds_again (serve_request ty flags payload _), served, List.nil_append]
  rfl

end Nl

/-- What requests return, in one byte order. -/
structure Reassembles (e : Endian) : Prop where
  replies : ∀ (packing : List (List Message)) (later : Queue) (final : Message),
    (∀ ms ∈ packing, (Message.datagram e ms).length ≤ 64 * 1024) →
    packing.flatten.find? (fun m => m.Ends) = some final →
    ∀ (ty flags : UInt16) (payload : List UInt8) (rounds : Nat), packing.length < rounds →
      Nl.run e ty flags payload rounds
          (packing.map (fun ms => .ok (Message.datagram e ms)) ++ later) =
        some (.ok (final.result e
          (Message.replies (packing.flatten.takeWhile fun m => ¬ m.Ends))))
  harmless : ∀ (seq : UInt32) (datagram : List UInt8) (out : Replies),
    ∃ ended, messages e seq datagram out = .ok ended

/--
In either byte order a request returns what the messages up to the first one that
ends it say, however they are packed, and arbitrary datagrams do no harm.
-/
theorem reassembles (e : Endian) : Reassembles e where
  replies _ _ _ small found ty flags payload _ enough :=
    Nl.run_packing small found ty flags payload enough
  harmless := messages_ok e

/-- A message of type `ty` whose body is one address long. -/
def Message.ofAddress (ty : UInt16) (seq : UInt32) (ip : Ipv4Addr) : Message where
  ty := ty
  flags := 2
  seq := seq
  pid := 0
  body := ip.octets
  padding := []
  padded := by simp [Ipv4Addr.octets, align]

/-- A stray message and a reply in one datagram, the end in another. -/
theorem reassembles_stray :
    Nl.run .little 22 0x300 [] 3
      [.ok (Message.datagram .little
        [.ofAddress 20 7 ⟨10, 0, 0, 1⟩, .ofAddress 20 1 ⟨10, 0, 0, 2⟩]),
       .ok (Message.datagram .little [.ofAddress nlmsgDone 1 ⟨0, 0, 0, 0⟩])] =
      some (.ok (.ok [(20, [10, 0, 0, 2])])) :=
  (reassembles .little).replies
    [[.ofAddress 20 7 ⟨10, 0, 0, 1⟩, .ofAddress 20 1 ⟨10, 0, 0, 2⟩],
      [.ofAddress nlmsgDone 1 ⟨0, 0, 0, 0⟩]] []
    (.ofAddress nlmsgDone 1 ⟨0, 0, 0, 0⟩) (by decide) rfl 22 0x300 [] 3 (by decide)

end StormLb.Netlink
