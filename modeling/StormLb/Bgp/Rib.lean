import StormLb.Bgp.Output
import StormLb.Bgp.Rfc4271

/-!
# What a peer has from the speaker

The routes in the peer's Adj-RIB-In: what the UPDATEs written on the connection
opened last say, read as RFC 4271 reads them.  A new connection starts with none.
-/

namespace StormLb.Bgp

open StormLb.Net StormLb.Effects StormLb.Bgp.Rfc4271

/-- The routes, by prefix, with their path attributes. -/
abbrev Rib : Type :=
  Prefix → Option (List Attribute)

def Rib.empty : Rib :=
  fun _ => none

/-- An UPDATE: what it withdraws is gone, what it announces is there. -/
def Rib.update (rib : Rib) (update : Update) : Rib :=
  fun destination =>
    if destination ∈ update.nlri then some update.attributes
    else if destination ∈ update.withdrawn then none
    else rib destination

/-- A message, as its bytes arrive. -/
def Rib.hear (rib : Rib) (bytes : List UInt8) : Rib :=
  if bytes[18]? = some typeUpdate then
    match decodeUpdate (bytes.drop 19) with
    | some update => rib.update update
    | none => rib
  else rib

/-- The peer's routes after what a speaker did. -/
def ribOf : Log → Rib
  | [] => .empty
  | ⟨op, answer⟩ :: past =>
      match op, answer with
      | .connect .., _ => .empty
      | .write m, none => (ribOf past).hear m.encode
      | _, _ => ribOf past

namespace Speaker

variable (s : Speaker)

/-- The VIP's /32. -/
def destination : Prefix :=
  .of s.vip 32 (Nat.le_refl 32)

/-- The VIP's route alone, or none. -/
def routes (announced : Bool) : Rib :=
  fun destination =>
    if announced = true ∧ destination = s.destination then
      some (Rfc4271.announced s.localAsn.toUInt16 s.nextHop)
    else none

theorem routes_false : s.routes false = .empty := by
  funext destination
  simp [routes, Rib.empty]

/-- A message that is no UPDATE. -/
def Plain (m : Message) : Prop :=
  m = s.opening ∨ m = .keepalive ∨ ∃ code sub, m = .notification code sub

variable {s}

theorem hear_message_of_ne {t : UInt8} (other : t ≠ typeUpdate) (body : List UInt8) (rib : Rib) :
    rib.hear (message t body) = rib := by
  refine if_neg fun same => other ?_
  have type : (message t body)[18]? = some t := rfl
  rw [type] at same
  exact Option.some.inj same

theorem hear_plain {m : Message} (plain : s.Plain m) (rib : Rib) : rib.hear m.encode = rib := by
  rcases plain with rfl | rfl | ⟨code, sub, rfl⟩
  · exact hear_message_of_ne (by decide) _ rib
  · exact hear_message_of_ne (by decide) _ rib
  · exact hear_message_of_ne (by decide) _ rib

theorem hear_announcement (announced : Bool) :
    (s.routes announced).hear s.announcement.encode = s.routes true := by
  have decoded := decodeUpdate_announce s.localAsn.toUInt16 s.nextHop s.vip
    (show (32 : UInt8).toNat ≤ 32 by decide)
  rw [Rib.hear, if_pos (by rfl)]
  change (match decodeUpdate ((updateAnnounce s.localAsn.toUInt16 s.nextHop s.vip 32).drop 19) with
    | some update => (s.routes announced).update update
    | none => s.routes announced) = s.routes true
  rw [decoded]
  funext destination
  by_cases here : destination = s.destination
  · subst here
    simp [Rib.update, routes, Speaker.destination]
  · have other : destination ≠ .of s.vip 32 (Nat.le_refl 32) := here
    simp [Rib.update, routes, here, other]

theorem hear_withdrawal (announced : Bool) :
    (s.routes announced).hear s.withdrawal.encode = s.routes false := by
  have decoded := decodeUpdate_withdraw s.vip (show (32 : UInt8).toNat ≤ 32 by decide)
  rw [Rib.hear, if_pos (by rfl)]
  change (match decodeUpdate ((updateWithdraw s.vip 32).drop 19) with
    | some update => (s.routes announced).update update
    | none => s.routes announced) = s.routes false
  rw [decoded]
  funext destination
  by_cases here : destination = s.destination
  · subst here
    simp [Rib.update, routes, Speaker.destination]
  · have other : destination ≠ .of s.vip 32 (Nat.le_refl 32) := here
    simp [Rib.update, routes, here, other]

/-! ## The law of a session, after whatever was before it -/

/-- What is written is plain or the route's, and the loop waits in step with the watch. -/
def InStep (s : Speaker) (op : Op) (log : Log) : Prop :=
  match op with
  | .write m => s.Plain m ∨ m = s.announcement ∨ m = s.withdrawal
  | .select _ => ∃ announced, ribOf log = s.routes announced ∧
      (sight log = .marked ∨ sight log = .read announced)
  | _ => True

/-- The loop's state is in step with the peer's routes and the watch. -/
structure Agrees (s : Speaker) (e : Established) (log : Log) : Prop where
  routes : ribOf log = s.routes e.announced
  seen : sight log = .marked ∨ sight log = .read e.announced

abbrev PostInStep (s : Speaker) : Established ⊕ Exit → Log → Prop :=
  LoopPost s.Agrees fun _ _ => True

theorem inStep_notify (code sub : UInt8) (why : String) (log : Log) :
    Program.Keeps s.InStep s.PostInStep (notify code sub why) log :=
  ⟨.inl (.inr (.inr ⟨code, sub, rfl⟩)), fun _ => trivial⟩

/-- A message that can be written is heard. -/
theorem inStep_writeOr {m : Message} {log : Log} (right : s.InStep (.write m) log)
    {rest : Prog (Established ⊕ Exit)}
    (continued : ribOf (⟨.write m, none⟩ :: log) = (ribOf log).hear m.encode →
      Program.Keeps s.InStep s.PostInStep rest (⟨.write m, none⟩ :: log)) :
    Program.Keeps s.InStep s.PostInStep (writeOr m rest) log := by
  refine ⟨right, fun failed => ?_⟩
  cases failed with
  | none => exact continued rfl
  | some error => exact trivial

theorem inStep_openConfirm (hold : UInt16) {log : Log} (none_ : ribOf log = s.routes false) :
    Program.Keeps s.InStep s.PostInStep (openConfirm hold) log := by
  refine ⟨trivial, fun answer => ?_⟩
  match answer with
  | none => exact inStep_notify _ _ _ _
  | some (.failed error) => exact trivial
  | some (.message t body) =>
      simp only [Program.done_bind]
      split
      · refine ⟨trivial, fun _ => ⟨trivial, fun now => ⟨trivial, fun _ => ?_⟩⟩⟩
        exact ⟨none_, .inl rfl⟩
      · split
        · exact trivial
        · exact inStep_notify _ _ _ _

theorem inStep_openSent {log : Log} (none_ : ribOf log = s.routes false) :
    Program.Keeps s.InStep s.PostInStep s.openSent log := by
  refine ⟨trivial, fun answer => ?_⟩
  match answer with
  | none => exact inStep_notify _ _ _ _
  | some (.failed error) => exact trivial
  | some (.message t body) =>
      simp only [Program.done_bind]
      split
      · split
        · exact inStep_notify _ _ _ _
        · refine inStep_writeOr (.inl (.inr (.inl rfl))) fun heard => inStep_openConfirm _ ?_
          rw [heard, hear_plain (s := s) (.inr (.inl rfl))]
          exact none_
      · split
        · exact trivial
        · exact inStep_notify _ _ _ _

/-- A connection begins without routes, whatever was before. -/
theorem inStep_start (s : Speaker) (log : Log) :
    Program.Keeps s.InStep s.PostInStep s.start log := by
  refine ⟨trivial, fun answer => ?_⟩
  match answer with
  | .timedOut => exact trivial
  | .failed error => exact trivial
  | .connected =>
      refine inStep_writeOr (.inl (.inl rfl)) fun heard => inStep_openSent ?_
      rw [heard, hear_plain (.inl rfl), s.routes_false]
      rfl

theorem inStep_onChanged {e : Established} {log : Log} (routes : ribOf log = s.routes e.announced) :
    Program.Keeps s.InStep s.PostInStep (s.onChanged e) log := by
  refine ⟨trivial, fun want => ?_⟩
  simp only [Program.done_bind]
  split
  · rename_i due
    refine inStep_writeOr (.inr (.inl rfl)) fun heard => ⟨?_, .inr (congrArg Sight.read due.1)⟩
    refine heard.trans (Eq.trans ?_ (hear_announcement e.announced))
    exact congrArg (Rib.hear · s.announcement.encode) routes
  · split
    · rename_i due
      refine inStep_writeOr (.inr (.inr rfl)) fun heard => ⟨?_, .inr (congrArg Sight.read due.1)⟩
      refine heard.trans (Eq.trans ?_ (hear_withdrawal e.announced))
      exact congrArg (Rib.hear · s.withdrawal.encode) routes
    · rename_i notUp notDown
      refine ⟨routes, .inr (congrArg Sight.read ?_)⟩
      cases want <;> cases announced : e.announced <;> simp_all

theorem inStep_onType {e : Established} {log : Log} (t : UInt8) (body : List UInt8)
    (agrees : s.Agrees e log) : Program.Keeps s.InStep s.PostInStep (onType e t body) log := by
  unfold onType
  split
  · exact agrees
  · split
    · exact trivial
    · split
      · exact inStep_notify _ _ _ _
      · exact inStep_notify _ _ _ _

theorem inStep_turn {e : Established} {log : Log} (agrees : s.Agrees e log) :
    Program.Keeps s.InStep s.PostInStep (s.turn e) log := by
  obtain ⟨routes, seen⟩ := agrees
  refine ⟨⟨e.announced, routes, seen⟩, fun ready => ?_⟩
  match ready with
  | .ticked =>
      refine inStep_writeOr (.inl (.inr (.inl rfl))) fun heard => ⟨?_, seen⟩
      rw [heard, hear_plain (s := s) (.inr (.inl rfl))]
      exact routes
  | .holdExpired => exact inStep_notify _ _ _ _
  | .senderGone => exact trivial
  | .changed => exact inStep_onChanged routes
  | .next (.failed error) => exact trivial
  | .next (.message t body) =>
      simp only [Program.done_bind, onMessage]
      split
      · exact inStep_onType t body ⟨routes, seen⟩
      · refine ⟨trivial, fun now => ?_⟩
        exact inStep_onType t body ⟨routes, seen⟩

/-- Where all that was written obeyed the law, the peer has the VIP's route or none. -/
theorem ribOf_of_always {log : Log} (always : History.Always s.InStep log) :
    ∃ announced, ribOf log = s.routes announced := by
  induction log with
  | nil => exact ⟨false, s.routes_false.symm⟩
  | cons event past ih =>
      obtain ⟨now, before⟩ := (History.always_cons _ _ _).mp always
      obtain ⟨announced, routes⟩ := ih before
      obtain ⟨op, answer⟩ := event
      cases op with
      | connect ip port => exact ⟨false, s.routes_false.symm⟩
      | write m =>
          cases answer with
          | some error => exact ⟨announced, routes⟩
          | none =>
              change ∃ announced, (ribOf past).hear m.encode = s.routes announced
              rw [routes]
              rcases now with plain | rfl | rfl
              · exact ⟨announced, hear_plain plain _⟩
              · exact ⟨true, hear_announcement announced⟩
              · exact ⟨false, hear_withdrawal announced⟩
      | _ => exact ⟨announced, routes⟩

end Speaker

end StormLb.Bgp
