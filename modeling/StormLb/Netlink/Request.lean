import StormLb.Effects.Program
import StormLb.Netlink.Wire

/-!
# Requests

A request is one message.  The kernel answers in datagrams of one message or
more, and the answer is over at NLMSG_DONE, or at NLMSG_ERROR, which is also how
a request is acknowledged.
-/

namespace StormLb.Netlink

open StormLb.Net StormLb.Checked StormLb.Effects

def nlmsgError : UInt16 := 2
def nlmsgDone : UInt16 := 3
def nlmFRequest : UInt16 := 1

/-- The `io::Error` of a request: an errno, or "truncated netlink message". -/
inductive NlError where
  | os (errno : Int32)
  | truncated
  deriving DecidableEq, Repr

/-- The messages that answer a request: type and body. -/
abbrev Replies : Type :=
  List (UInt16 × List UInt8)

inductive NlOp where
  | send (msg : List UInt8)
  | recv (capacity : Nat)

/-- An errno, or for `recv` the bytes of the datagram, as many as fit. -/
def NlOp.Ans : NlOp → Type
  | .send _ => Except Int32 Unit
  | .recv _ => Except Int32 (List UInt8)

section

variable (e : Endian)

/-- One netlink message: header and payload, padded to four bytes. -/
def nlMsg (ty flags : UInt16) (seq : UInt32) (payload : List UInt8) : List UInt8 :=
  let len := 16 + payload.length
  let m := e.toNeBytes32 len.toUInt32 ++ e.toNeBytes16 ty ++ e.toNeBytes16 (flags ||| nlmFRequest) ++
    e.toNeBytes32 seq ++ e.toNeBytes32 0 ++ payload
  m ++ List.replicate (align len - len) 0

/-- The number in an NLMSG_ERROR. -/
def errorNumber (body : List UInt8) : Except Fault Int32 :=
  if 4 ≤ body.length then do return (← u32At e body 0).toInt32 else return 0

/--
One turn of the loop over a datagram, on what is left of it and the replies so
far.  The loop ends at the end of the datagram, with the replies, or it ends the
request, with its result.
-/
def messageTurn (seq : UInt32) : List UInt8 × Replies →
    Except Fault ((List UInt8 × Replies) ⊕ (Replies ⊕ Except NlError Replies))
  | (b, out) =>
    if 16 ≤ b.length then do
      let len := (← u32At e b 0).toNat
      if len < 16 ∨ b.length < len then return .inr (.inr (.error .truncated))
      let mty ← u16At e b 4
      let mseq ← u32At e b 8
      let body ← slice b 16 len
      let rest ← sliceFrom b (min (align len) b.length)
      if mseq ≠ seq then return .inl (rest, out)
      if mty = nlmsgDone then return .inr (.inr (.ok out))
      if mty = nlmsgError then do
        let err ← errorNumber e body
        -- `-err` on an `i32`.
        return .inr (.inr (if err = 0 then .ok out else .error (.os (-err))))
      return .inl (rest, out ++ [(mty, body)])
    else return .inr (.inl out)

/-- The loop over a datagram; every turn but the last takes at least 16 bytes. -/
def messages (seq : UInt32) (datagram : List UInt8) (out : Replies) :
    Except Fault (Replies ⊕ Except NlError Replies) :=
  rounds (messageTurn e seq) (datagram.length + 1) (datagram, out)

namespace Nl

/-- The result of a request, unless it comes to a fault. -/
abbrev Result : Type :=
  Except Fault (Except NlError Replies)

/-- What a `recv` leads to: an end, or more replies than before and another `recv`. -/
def received (seq : UInt32) (out : Replies) : Except Int32 (List UInt8) → Replies ⊕ Result
  | .error errno => .inr (.ok (.error (.os errno)))
  | .ok datagram =>
      match messages e seq datagram out with
      | .error fault => .inr (.error fault)
      | .ok (.inl out) => .inl out
      | .ok (.inr result) => .inr (.ok result)

/-- The loop of `request`, with the replies so far: one datagram. -/
def replies (seq : UInt32) (out : Replies) : Program NlOp NlOp.Ans (Replies ⊕ Result) :=
  .call (.recv (64 * 1024)) fun answer => .done (received e seq out answer)

/-- Send a request; the answer is collected by `replies`. -/
def request (ty flags : UInt16) (payload : List UInt8) :
    Program NlOp NlOp.Ans (Replies ⊕ Result) :=
  .call (.send (nlMsg e ty flags 1 payload)) fun
    | .error errno => .done (.inr (.ok (.error (.os errno))))
    | .ok _ => .done (.inl [])

end Nl

/-! ## Any bytes -/

theorem errorNumber_ok (body : List UInt8) : ∃ err, errorNumber e body = .ok err := by
  unfold errorNumber
  split_ifs with long
  · obtain ⟨number, read⟩ := u32At_ok e (show 0 + 4 ≤ body.length by omega)
    exact ⟨number.toInt32, by rw [read]; rfl⟩
  · exact ⟨0, rfl⟩

theorem messageTurn_nearer (seq : UInt32) (state : List UInt8 × Replies) :
    (∃ next, messageTurn e seq state = .ok (.inl next) ∧ next.1.length < state.1.length) ∨
      ∃ value, messageTurn e seq state = .ok (.inr value) := by
  obtain ⟨b, out⟩ := state
  by_cases long : 16 ≤ b.length
  · obtain ⟨len, readLen⟩ := u32At_ok e (show 0 + 4 ≤ b.length by omega)
    obtain ⟨mty, readTy⟩ := u16At_ok e (show 4 + 2 ≤ b.length by omega)
    obtain ⟨mseq, readSeq⟩ := u32At_ok e (show 8 + 4 ≤ b.length by omega)
    by_cases wrong : len.toNat < 16 ∨ b.length < len.toNat
    · right
      exact ⟨_, by simp only [messageTurn, if_pos long, readLen, ok_bind, if_pos wrong]; rfl⟩
    · have aligned := le_align len.toNat
      have body := slice_ok (show 16 ≤ len.toNat by omega) (show len.toNat ≤ b.length by omega)
      have rest := sliceFrom_ok (Nat.min_le_right (align len.toNat) b.length)
      obtain ⟨err, number⟩ := errorNumber_ok e ((b.take len.toNat).drop 16)
      have shorter : (b.drop (min (align len.toNat) b.length)).length < b.length := by
        simp only [List.length_drop]
        omega
      simp only [messageTurn, if_pos long, readLen, ok_bind, if_neg wrong, readTy, readSeq, body,
        rest, number, pure_eq]
      split_ifs
      · exact .inl ⟨_, rfl, shorter⟩
      · exact .inr ⟨_, rfl⟩
      · exact .inr ⟨_, rfl⟩
      · exact .inr ⟨_, rfl⟩
      · exact .inl ⟨_, rfl, shorter⟩
  · right
    exact ⟨_, by simp only [messageTurn, if_neg long]; rfl⟩

/-- Arbitrary datagrams are read to an end, and never out of range. -/
theorem messages_ok (seq : UInt32) (datagram : List UInt8) (out : Replies) :
    ∃ ended, messages e seq datagram out = .ok ended :=
  rounds_ok (messageTurn_nearer e seq) (Nat.lt_succ_self datagram.length)

end

end StormLb.Netlink
