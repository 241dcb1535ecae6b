import StormLb.Vrrp.Following

/-!
# One Master

From a cold start the router whose timer runs out first, by more than the LAN and
the loops can delay it, becomes Master in time and stays it, and no other router
ever has the VIP or advertises.
-/

namespace StormLb.Vrrp

open StormLb.Net StormLb.Effects StormLb.Heartbeat

namespace Lan

section

variable {ι : Type} (lan : Lan ι)

/-- A router at the head of its loop. -/
def Role (i : ι) (l : Locals) (w : Wire ι) : Prop :=
  (i = lan.lead → lan.Leads l w) ∧ (i ≠ lan.lead → lan.Follows i l w)

/-- Only the others' loops end. -/
abbrev Keeps (i : ι) : Locals ⊕ Exit → Wire ι → Prop :=
  Sum.elim (lan.Role i) fun _ _ => i ≠ lan.lead

/-- What holds of the routers of a LAN and what they sent. -/
structure OneMaster (config : Config ι Call Call.Ans Locals Exit (Wire ι)) : Prop where
  alone : ∀ i, config.world.holds i = true → i = lan.lead
  advertises : ∀ packet ∈ config.world.sent,
    packet.sender = lan.lead ∧ packet.bytes = lan.advertisement
  works : ∀ exit, config.threads lan.lead ≠ .done (.inr exit)
  /-- The next advertisement is not overdue. -/
  inTime : config.world.now ≤ lan.nextBy config.world
  /-- When the first is, the router has the VIP. -/
  holds : lan.first < config.world.now → config.world.holds lan.lead = true

end

variable {ι : Type} [DecidableEq ι] {lan : Lan ι}
  {allowed : Option ι → Config ι Call Call.Ans Locals Exit (Wire ι) → Prop}
  {config : Config ι Call Call.Ans Locals Exit (Wire ι)}

/-- What a turn leads the router that works to, it leads it to. -/
theorem keeps_lead {program : Prog (Locals ⊕ Exit)} {w : Wire ι}
    (does : lan.Does lan.lead lan.LeadPost program w) :
    lan.Does lan.lead (lan.Keeps lan.lead) program w := by
  refine does.weaken ?_
  rintro (l | exit) world kept
  · exact ⟨fun _ => kept, fun other => absurd rfl other⟩
  · exact kept.elim

theorem keeps_other {i : ι} (other : i ≠ lan.lead) {program : Prog (Locals ⊕ Exit)} {w : Wire ι}
    (does : lan.Does i (lan.FollowPost i) program w) : lan.Does i (lan.Keeps i) program w := by
  refine does.weaken ?_
  rintro (l | exit) world kept
  · exact ⟨fun own => absurd own other, fun _ => kept⟩
  · exact other

/-- Each router, alone among the others, starts in its role and keeps to it. -/
theorem keeps_start (timely : lan.Timely) (i : ι) :
    lan.Does i (lan.Keeps i) (lan.loops.first i) (.start lan.pace) := by
  by_cases own : i = lan.lead
  · subst own
    exact keeps_lead does_start
  · exact keeps_other own (does_start_backup timely own)

theorem keeps_turn (timely : lan.Timely) (i : ι) (l : Locals) (w : Wire ι) (role : lan.Role i l w) :
    lan.Does i (lan.Keeps i) (lan.loops.body i l) w := by
  obtain ⟨leads, follows⟩ := role
  by_cases own : i = lan.lead
  · subst own
    exact keeps_lead (does_turn (leads rfl))
  · exact keeps_other own (does_turn_backup timely own (follows own))

theorem keeps_of_reaches (timely : lan.Timely)
    (reached : Threads.Reaches lan.loops allowed (lan.loops.initial (.start lan.pace)) config)
    (i : ι) : lan.Does i (lan.Keeps i) (config.threads i) config.world := by
  have kept := reached.honours (fun i _ _ _ => Frame.trans) Frame.refl (fun i _ _ => frame_drifts i)
    (fun i _ _ _ apart guarantees => Guarantees.frame guarantees i apart) (keeps_start timely)
    (keeps_turn timely) i
  exact kept

theorem sound_of_reaches (timely : lan.Timely)
    (reached : Threads.Reaches lan.loops allowed (lan.loops.initial (.start lan.pace)) config) :
    lan.Sound config.world :=
  reached.guaranteed Frame.refl (fun _ before i => keeps_of_reaches timely before i)
    (fun _ _ drifts sound => sound_drifts sound drifts)
    (fun _ _ _ guarantees sound => guarantees.sound sound) sound_start

/--
Whatever the interleaving, the delays and the losses: only the one router has the
VIP and advertises, and it has it from when it should on.
-/
theorem oneMaster_of_reaches (timely : lan.Timely)
    (reached : Threads.Reaches lan.loops allowed (lan.loops.initial (.start lan.pace)) config) :
    lan.OneMaster config := by
  have sound := sound_of_reaches timely reached
  have inTime : config.world.now ≤ lan.nextBy config.world := by
    obtain ⟨moment, due, soon⟩ := sound.awake
    exact (sound.inTime _ _ due).trans soon
  refine ⟨sound.alone, fun packet sent => ?_, fun exit ended => ?_, inTime, fun late => ?_⟩
  · obtain ⟨sender, _, bytes⟩ := sound.sent packet sent
    exact ⟨sender, bytes⟩
  · have kept := keeps_of_reaches timely reached lan.lead
    rw [ended] at kept
    exact kept _ (Frame.refl _ _) rfl
  · refine sound.holds fun nothing => ?_
    rw [nextBy, Wire.times, nothing] at inTime
    exact absurd inTime (Nat.not_le.mpr late)

end Lan

/-! ## Two routers -/

/-- The header of an advertisement, its checksum left to the kernel. -/
def headerBytes (src : Ipv4Addr) : List UInt8 :=
  [0x45, 0xc0, 0, 32, 0, 0, 0x40, 0, 255, 112, 0, 0] ++ src.octets ++ vrrpMcast.octets

theorem headerBytes_length (src : Ipv4Addr) : (headerBytes src).length = 20 := by
  rfl

theorem headerBytes_ihl (src : Ipv4Addr) :
    ((headerBytes src).getD 0 0 &&& 0x0f).toNat * 4 = (headerBytes src).length := by
  change (0x45 &&& 0x0f : UInt8).toNat * 4 = 20
  decide

def headerOf (src : Ipv4Addr) : Ipv4Header where
  bytes := headerBytes src
  long := Nat.le_of_eq (headerBytes_length src).symm
  ihl := headerBytes_ihl src

def addrOf (first : Bool) : Ipv4Addr :=
  ⟨192, 168, 8, if first then 10 else 11⟩

theorem addrOf_injective : Function.Injective addrOf := by
  unfold Function.Injective
  decide

theorem owner_priority : owner.priority ≠ 0 := by
  decide

/-- An owner and a Backup, a millisecond apart; one packet in a row may be lost. -/
def ownerAndBackup : Lan Bool where
  params first := if first then owner else { owner with priority := 100 }
  addr := addrOf
  header i _ := headerOf (addrOf i)
  lead := true
  pace := millis 1
  latency := millis 1
  window := millis 1100
  sameVrid i := by cases i <;> rfl
  addrInjective := addrOf_injective
  src _ _ := rfl
  ttl _ _ := rfl
  priority := owner_priority

theorem timely_ownerAndBackup : ownerAndBackup.Timely where
  noOwner := by decide
  yields := by decide
  patient := by decide
  steady := by decide

/-- Nothing fails, and what arrived is received. -/
def answersOnLan (i : Bool) (w : Wire Bool) (call : Call) : call.Ans :=
  match call with
  | ⟨_, .interfaceIpv4 _⟩ => some (addrOf i)
  | ⟨_, .now⟩ => w.now
  | ⟨_, .recvFrom⟩ =>
      match w.unread i with
      | [] => .timedOut
      | arrival :: _ => .datagram (ownerAndBackup.datagram arrival)
  | call => answers .timedOut [] call

abbrev LanConfig := Config Bool Call Call.Ans Locals Exit (Wire Bool)

def playOnLan : LanConfig → List Bool → LanConfig :=
  ownerAndBackup.loops.playSchedule Threads.anySchedule answersOnLan

/-- The owner claims and advertises, and both wait for what is next. -/
def advertisedOnLan : LanConfig :=
  playOnLan (ownerAndBackup.loops.initial (.start ownerAndBackup.pace))
    (List.replicate 22 true ++ List.replicate 12 false)

def firstPacket : Packet Bool :=
  ⟨0, true, ownerAndBackup.advertisement⟩

/-- The advertisement arrives, and the Backup takes it. -/
def takenOnLan : LanConfig :=
  playOnLan
    { advertisedOnLan with
      world := ((advertisedOnLan.world.drop false firstPacket).queue false (.packet firstPacket)).mark
        false firstPacket.sentAt }
    (List.replicate 8 false)

def awaitedOnLan : LanConfig :=
  { takenOnLan with world := { takenOnLan.world with now := millis 400 } }

theorem reaches_awaitedOnLan : Threads.Reaches ownerAndBackup.loops Threads.anySchedule
    (ownerAndBackup.loops.initial (.start ownerAndBackup.pace)) awaitedOnLan := by
  have sent : Threads.Reaches ownerAndBackup.loops Threads.anySchedule
      (ownerAndBackup.loops.initial (.start ownerAndBackup.pace)) advertisedOnLan :=
    Threads.Reaches.playSchedule _ _ .start
  have underWay : firstPacket ∈ advertisedOnLan.world.underWay false := by decide +kernel
  have arrived := sent.step trivial (.drift (Lan.Drifts.arrive underWay))
  have taken : Threads.Reaches ownerAndBackup.loops Threads.anySchedule
      (ownerAndBackup.loops.initial (.start ownerAndBackup.pace)) takenOnLan :=
    Threads.Reaches.playSchedule _ _ arrived
  refine taken.step trivial (.drift (Lan.Drifts.pass ?_ ?_ ?_))
  · decide +kernel
  · have due : ∀ i, takenOnLan.world.due i = some (millis 501) := by decide +kernel
    intro i moment next
    obtain rfl := Option.some.inj ((due i).symm.trans next)
    decide +kernel
  · have nothing : ∀ i, takenOnLan.world.underWay i = [] := by decide +kernel
    intro i packet member
    rw [nothing i] at member
    cases member

theorem oneMaster_awaitedOnLan :
    ownerAndBackup.first < awaitedOnLan.world.now ∧ awaitedOnLan.world.sent ≠ [] ∧
      ownerAndBackup.OneMaster awaitedOnLan :=
  ⟨by decide +kernel, by decide +kernel,
    Lan.oneMaster_of_reaches timely_ownerAndBackup reaches_awaitedOnLan⟩

end StormLb.Vrrp
