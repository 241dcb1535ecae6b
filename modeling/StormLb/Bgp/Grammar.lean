import StormLb.Bgp.Session
import StormLb.Effects.Trace

/-!
# The grammar of a session's output

A whole session writes OPEN, then KEEPALIVE and a mix of KEEPALIVEs and UPDATEs
that announce and withdraw in turn, and at most one NOTIFICATION, at its end.
An automaton admits the prefixes of such sessions one message at a time.
-/

namespace StormLb.Bgp

open StormLb.Effects

/-! ## Whole sessions -/

def Message.isUpdate : Message → Bool
  | .announce .. => true
  | .withdraw .. => true
  | _ => false

/-- The UPDATEs among the messages. -/
def updates (messages : List Message) : List Message :=
  messages.filter Message.isUpdate

namespace Speaker

variable (s : Speaker)

def opening : Message :=
  .opening s.localAsn.toUInt16 holdTime s.bgpId

def announcement : Message :=
  .announce s.localAsn.toUInt16 s.nextHop s.vip 32

def withdrawal : Message :=
  .withdraw s.vip 32

/-- KEEPALIVEs and UPDATEs, the UPDATEs announcing and withdrawing in turn. -/
def IsMix (mix : List Message) : Prop :=
  (∀ m ∈ mix, m = .keepalive ∨ m.isUpdate = true) ∧
    ∃ n, updates mix = alternating s.announcement s.withdrawal n

/-- What a whole session writes. -/
inductive IsSession : List Message → Prop where
  | refused (code sub : UInt8) : IsSession [s.opening, .notification code sub]
  | confirmed {mix : List Message} (mixed : s.IsMix mix) :
      IsSession (s.opening :: .keepalive :: mix)
  | notified {mix : List Message} (mixed : s.IsMix mix) (code sub : UInt8) :
      IsSession (s.opening :: .keepalive :: mix ++ [.notification code sub])

end Speaker

/-! ## The automaton of the output -/

/-- How far the output is; `confirmed` knows whether the route is announced. -/
inductive Phase where
  | silent
  | opened
  | confirmed (announced : Bool)
  | ended
  deriving DecidableEq, Repr

namespace Speaker

variable (s : Speaker)

/-- The phase after one more message, if it may be written. -/
def follows : Phase → Message → Option Phase
  | .silent, .opening localAsn hold bgpId =>
      if Message.opening localAsn hold bgpId = s.opening then some .opened else none
  | .opened, .keepalive => some (.confirmed false)
  | .opened, .notification _ _ => some .ended
  | .confirmed announced, .keepalive => some (.confirmed announced)
  | .confirmed false, .announce localAsn nextHop vip prefixLen =>
      if Message.announce localAsn nextHop vip prefixLen = s.announcement
        then some (.confirmed true) else none
  | .confirmed true, .withdraw vip prefixLen =>
      if Message.withdraw vip prefixLen = s.withdrawal then some (.confirmed false) else none
  | .confirmed _, .notification _ _ => some .ended
  | _, _ => none

@[simp] theorem follows_opening : s.follows .silent s.opening = some .opened :=
  if_pos rfl

@[simp] theorem follows_announcement :
    s.follows (.confirmed false) s.announcement = some (.confirmed true) :=
  if_pos rfl

@[simp] theorem follows_withdrawal :
    s.follows (.confirmed true) s.withdrawal = some (.confirmed false) :=
  if_pos rfl

@[simp] theorem follows_keepalive (announced : Bool) :
    s.follows (.confirmed announced) .keepalive = some (.confirmed announced) := by
  cases announced <;> rfl

@[simp] theorem follows_notification (announced : Bool) (code sub : UInt8) :
    s.follows (.confirmed announced) (.notification code sub) = some .ended := by
  cases announced <;> rfl

/-- The phase the messages lead to, if every one of them may be written. -/
def speaks (messages : List Message) : Option Phase :=
  messages.foldlM s.follows .silent

@[simp] theorem speaks_nil : s.speaks [] = some .silent :=
  rfl

@[simp] theorem speaks_concat (messages : List Message) (m : Message) :
    s.speaks (messages ++ [m]) = (s.speaks messages).bind (s.follows · m) := by
  simp [speaks, List.foldlM_append]

/-- The messages that lead to a phase. -/
def Shape : Phase → List Message → Prop
  | .silent, messages => messages = []
  | .opened, messages => messages = [s.opening]
  | .confirmed announced, messages =>
      ∃ mix, messages = s.opening :: .keepalive :: mix ∧
        (∀ m ∈ mix, m = .keepalive ∨ m.isUpdate = true) ∧
          Alternates s.announcement s.withdrawal announced (updates mix)
  | .ended, messages => s.IsSession messages ∧ ∃ code sub, .notification code sub ∈ messages

variable {s}

/-- A KEEPALIVE in the mix. -/
theorem Shape.keepalive {announced : Bool} {messages : List Message}
    (shape : s.Shape (.confirmed announced) messages) :
    s.Shape (.confirmed announced) (messages ++ [.keepalive]) := by
  obtain ⟨mix, rfl, mixed, alternates⟩ := shape
  refine ⟨mix ++ [.keepalive], by simp, ?_, by simpa [updates, Message.isUpdate] using alternates⟩
  intro m member
  rcases List.mem_append.mp member with earlier | last
  · exact mixed m earlier
  · exact .inl (List.mem_singleton.mp last)

/-- The UPDATE whose turn it is. -/
theorem Shape.update {announced : Bool} {messages : List Message}
    (shape : s.Shape (.confirmed announced) messages) :
    s.Shape (.confirmed !announced)
      (messages ++ [if announced then s.withdrawal else s.announcement]) := by
  obtain ⟨mix, rfl, mixed, alternates⟩ := shape
  have isUpdate : (if announced then s.withdrawal else s.announcement).isUpdate = true := by
    cases announced <;> rfl
  refine ⟨mix ++ [_], by simp; rfl, ?_, ?_⟩
  · intro m member
    rcases List.mem_append.mp member with earlier | last
    · exact mixed m earlier
    · exact .inr (List.mem_singleton.mp last ▸ isUpdate)
  · rw [updates, List.filter_append, List.filter_singleton, isUpdate]
    exact alternates.turn

/-- A NOTIFICATION ends the session, before the KEEPALIVE or after it. -/
theorem Shape.notification {phase : Phase} {messages : List Message} (code sub : UInt8)
    (shape : s.Shape phase messages) (allowed : phase = .opened ∨ ∃ a, phase = .confirmed a) :
    s.Shape .ended (messages ++ [.notification code sub]) := by
  refine ⟨?_, code, sub, by simp⟩
  rcases allowed with rfl | ⟨announced, rfl⟩
  · cases shape
    exact .refused code sub
  · obtain ⟨mix, rfl, mixed, n, alternate, _⟩ := shape
    exact .notified ⟨mixed, n, alternate⟩ code sub

/-- One more message keeps the shape. -/
theorem Shape.follows {phase after : Phase} {messages : List Message} {m : Message}
    (shape : s.Shape phase messages) (follows : s.follows phase m = some after) :
    s.Shape after (messages ++ [m]) := by
  unfold Speaker.follows at follows
  split at follows
  · split at follows
    · rename_i same
      cases follows
      cases shape
      rw [same]
      rfl
    · cases follows
  · cases follows
    cases shape
    exact ⟨[], rfl, by simp, Alternates.nil _ _⟩
  · cases follows
    exact shape.notification _ _ (.inl rfl)
  · cases follows
    exact shape.keepalive
  · split at follows
    · rename_i same
      cases follows
      rw [same]
      exact shape.update
    · cases follows
  · split at follows
    · rename_i same
      cases follows
      rw [same]
      exact shape.update
    · cases follows
  · cases follows
    exact shape.notification _ _ (.inr ⟨_, rfl⟩)
  · cases follows

/-- What the automaton admits has the shape of its phase. -/
theorem shape_of_speaks {messages : List Message} {phase : Phase}
    (spoken : s.speaks messages = some phase) : s.Shape phase messages := by
  induction messages using List.reverseRecOn generalizing phase with
  | nil =>
      cases spoken
      rfl
  | append_singleton messages m ih =>
      rw [speaks_concat, Option.bind_eq_some_iff] at spoken
      obtain ⟨before, spoken, follows⟩ := spoken
      exact (ih spoken).follows follows

/-- Every shape is a prefix of a session. -/
theorem Shape.prefix_session {phase : Phase} {messages : List Message}
    (shape : s.Shape phase messages) : ∃ whole, s.IsSession whole ∧ messages <+: whole := by
  have empty : s.IsMix [] := ⟨by simp, 0, rfl⟩
  cases phase with
  | silent =>
      cases shape
      exact ⟨_, .confirmed empty, List.nil_prefix⟩
  | opened =>
      cases shape
      exact ⟨_, .confirmed empty, by simp⟩
  | confirmed announced =>
      obtain ⟨mix, rfl, mixed, n, alternate, _⟩ := shape
      exact ⟨_, .confirmed ⟨mixed, n, alternate⟩, List.prefix_refl _⟩
  | ended => exact ⟨messages, shape.1, List.prefix_refl _⟩

/-- The last UPDATE is an announce exactly while the automaton says so. -/
theorem Shape.last_update {announced : Bool} {messages : List Message}
    (shape : s.Shape (.confirmed announced) messages) :
    (updates messages).getLast? = some s.announcement ↔ announced = true := by
  obtain ⟨mix, rfl, _, alternates⟩ := shape
  have same : updates (s.opening :: .keepalive :: mix) = updates mix := by
    simp [updates, Message.isUpdate, opening]
  rw [same]
  exact alternates.getLast? (by simp [announcement, withdrawal])

/-- A NOTIFICATION is only written into the end of the session. -/
theorem Shape.notification_mem {phase : Phase} {messages : List Message} {code sub : UInt8}
    (shape : s.Shape phase messages) (member : .notification code sub ∈ messages) :
    phase = .ended := by
  cases phase with
  | silent =>
      cases shape
      simp at member
  | opened =>
      cases shape
      simp [opening] at member
  | confirmed announced =>
      obtain ⟨mix, rfl, mixed, _⟩ := shape
      have inside : .notification code sub ∈ mix := by simpa [opening] using member
      rcases mixed _ inside with same | update
      · cases same
      · cases update
  | ended => rfl

end Speaker

end StormLb.Bgp
