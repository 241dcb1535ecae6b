import Mathlib.Algebra.Order.Group.Nat
import StormLb.Vrrp.Leading
import StormLb.Vrrp.Refinement

/-!
# The other routers

Each is a Backup throughout: what it hears is a Master's advertisement to it, and
before its timer runs out it hears of the router that works, or of nobody yet.
-/

namespace StormLb.Vrrp

open StormLb.Net StormLb.Effects StormLb.Heartbeat

open Program (Honours)

/-- An interval has 12 bits. -/
theorem VirtualRouter.new_interval_le (vrid priority : UInt8) (preempt : Bool)
    (advertIntervalSecs : UInt64) :
    (VirtualRouter.new vrid priority preempt advertIntervalSecs).advertIntervalCentis.toNat ≤
      4095 := by
  simp only [VirtualRouter.new, UInt64.toNat_toUInt16, UInt64.toNat_min, UInt64.reduceToNat]
  omega

namespace Lan

section

variable {ι : Type} (lan : Lan ι)

/-- This deadline of the router is far enough. -/
structure Listens (i : ι) (deadline : Instant) (w : Wire ι) : Prop where
  sound : lan.Sound w
  hears : lan.Hears i deadline w

/-- The operations that do nothing to the LAN and the VIP, and hear nothing. -/
def Idle : Op → Prop
  | .recvFrom => False
  | op => Plain op

/-- A Backup that was given the router's settings. -/
structure Waiting (i : ι) (l : Locals) : Prop where
  source : l.ifaceIp = lan.addr i
  state : l.vr.state = .backup
  priority : l.vr.priority = (lan.params i).priority
  preempt : l.vr.preempt = (lan.params i).preempt

/-- The router at the head of its loop. -/
def Follows (i : ι) (l : Locals) (w : Wire ι) : Prop :=
  lan.Waiting i l ∧ lan.Listens i l.masterDownDeadline w

/-- What a router is told, whatever fails. -/
def Told (i : ι) (w : Wire ι) : (call : Call) → call.Ans → Prop
  | ⟨_, .interfaceIpv4 _⟩, found => ∀ ip, found = some ip → ip = lan.addr i
  | ⟨_, .now⟩, now => now = w.now
  | _, _ => True

end

variable {ι : Type} {lan : Lan ι} {w after : Wire ι} {i : ι} {deadline : Instant}

theorem Listens.frame (listens : lan.Listens i deadline w) (frame : lan.Frame i w after) :
    lan.Listens i deadline after :=
  ⟨frame.sound listens.sound, frame.hears deadline listens.hears⟩

/-- A later deadline is far enough, too. -/
theorem Hears.later {later : Instant} (hears : lan.Hears i deadline w) (le : deadline ≤ later) :
    lan.Hears i later w := by
  unfold Hears at hears ⊢
  cases known : w.arrived i with
  | none =>
      rw [known] at hears
      exact hears.trans le
  | some earlier =>
      rw [known] at hears
      exact hears.imp_left fun far => far.trans le

/-! ## What is heard -/

/-- Every advertisement that arrives is the same. -/
theorem parse_packet (sound : lan.Sound w) {packet : Packet ι} (sent : packet ∈ w.sent) :
    parseAdvertisement (lan.datagram (.packet packet)) (lan.params i).vrid =
      some { priority := (lan.params lan.lead).priority, src := lan.addr lan.lead,
             intervalCentis := (lan.params lan.lead).router.advertIntervalCentis % 4096 } := by
  obtain ⟨sender, _, bytes⟩ := sound.sent packet sent
  have source := lan.src packet.sender packet.sentAt
  have few : [(lan.params packet.sender).vip].length ≤ 255 := by
    rw [List.length_singleton]
    decide
  have same : (lan.params i).vrid = (lan.params packet.sender).vrid := by
    rw [lan.sameVrid i, sender]
  rw [datagram, bytes, advertisement, ← sender, ← source, Params.advertisement,
    parse_encodeAdvertisement _ _ _ _ few, if_pos ⟨lan.ttl packet.sender packet.sentAt, same⟩]

/-- A Backup takes it as a Master's, and waits three intervals at least. -/
theorem onAdvertisement_heard (timely : lan.Timely) (other : i ≠ lan.lead) {vr : VirtualRouter}
    (state : vr.state = .backup) (priority : vr.priority = (lan.params i).priority)
    (preempt : vr.preempt = (lan.params i).preempt) (ourAddr : Ipv4Addr) :
    ∃ interval centis, vr.onAdvertisement (lan.params lan.lead).priority (lan.addr lan.lead)
        ourAddr ((lan.params lan.lead).router.advertIntervalCentis % 4096) =
      (.resetTimer centis, { vr with masterAdverIntervalCentis := interval }) ∧
      3 * lan.interval ≤ Vrrp.centis centis := by
  have yields : vr.preempt = false ∨ vr.priority ≤ (lan.params lan.lead).priority := by
    rw [priority, preempt]
    exact timely.yields i other
  let learned := max ((lan.params lan.lead).router.advertIntervalCentis % 4096) 1
  have takes : vr.onAdvertisement (lan.params lan.lead).priority (lan.addr lan.lead) ourAddr
      ((lan.params lan.lead).router.advertIntervalCentis % 4096) =
        (.resetTimer { vr with masterAdverIntervalCentis := learned }.masterDownIntervalCentis,
          { vr with masterAdverIntervalCentis := learned }) := by
    simp only [VirtualRouter.onAdvertisement, state, if_neg lan.priority, if_pos yields, learned]
  refine ⟨_, _, takes, ?_⟩
  have longer : (lan.params lan.lead).router.advertIntervalCentis.toNat ≤ learned.toNat := by
    have small : (lan.params lan.lead).router.advertIntervalCentis.toNat ≤ 4095 :=
      VirtualRouter.new_interval_le ..
    rw [UInt16.toNat_max, UInt16.toNat_mod]
    refine (Nat.le_of_eq ?_).trans (Nat.le_max_left _ _)
    exact (Nat.mod_eq_of_lt (Nat.lt_succ_of_le small)).symm
  rw [interval, Vrrp.centis, millis, millis, ← Nat.mul_assoc, ← Nat.mul_assoc]
  refine Nat.mul_le_mul_right _ (Nat.mul_le_mul_right _ ?_)
  rw [VirtualRouter.masterDownIntervalCentis_toNat]
  exact (Nat.mul_le_mul_left 3 longer).trans (Nat.le_add_right _ _)

/-- Once everything that arrived is read, a deadline of three intervals is far enough. -/
theorem hears_of_arrived (sound : lan.Sound w) (arrived : w.arrived i ≠ none)
    (far : w.now + 3 * lan.interval ≤ deadline) : lan.Hears i deadline w := by
  unfold Hears
  cases known : w.arrived i with
  | none => exact absurd known arrived
  | some earlier =>
      obtain ⟨packet, sent, same⟩ := List.mem_map.mp (sound.arrived i earlier known)
      obtain ⟨_, before, _⟩ := sound.sent packet sent
      refine .inl ((Nat.add_le_add_right ?_ _).trans far)
      rw [← same]
      exact before

/-- A router that has read everything is not at its deadline, for a pace yet. -/
theorem now_lt_of_read (timely : lan.Timely) (other : i ≠ lan.lead)
    (listens : lan.Listens i deadline w) (read : w.unread i = []) : w.now + lan.pace < deadline := by
  obtain ⟨sound, hears⟩ := listens
  obtain ⟨moment, due, soon⟩ := sound.awake
  have inTime : w.now ≤ lan.nextBy w := (sound.inTime _ _ due).trans soon
  have recent := sound.paced.recent (inTime.trans (Nat.le_add_right _ lan.latency))
  have patient := timely.patient i other
  have steady := timely.steady
  unfold Hears at hears
  cases known : w.arrived i with
  | none =>
      rw [known] at hears
      rcases recent with ⟨_, started⟩ | ⟨beat, member, late, _⟩
      · grind
      · -- What was sent so long ago is not under way, nor did anything arrive.
        obtain ⟨packet, sent, rfl⟩ := List.mem_map.mp member
        rcases sound.reaches i other packet sent with underWay | ⟨earlier, arrived, _⟩
        · obtain ⟨_, _, fresh⟩ := sound.underWay i packet underWay
          exact absurd late (Nat.not_lt.mpr fresh)
        · cases known.symm.trans arrived
  | some earlier =>
      rw [known] at hears
      have far : earlier + 3 * lan.interval ≤ deadline := by
        refine hears.resolve_right ?_
        rintro ⟨packet, waits, _⟩
        rw [read] at waits
        cases waits
      rcases recent with ⟨allUnderWay, _⟩ | ⟨beat, member, late, soon⟩
      · have fresh := allUnderWay earlier (sound.arrived i earlier known)
        grind
      · obtain ⟨packet, sent, rfl⟩ := List.mem_map.mp member
        rcases sound.reaches i other packet sent with underWay | ⟨last, arrived, lost⟩
        · obtain ⟨_, _, fresh⟩ := sound.underWay i packet underWay
          exact absurd late (Nat.not_lt.mpr fresh)
        · obtain rfl := Option.some.inj (known.symm.trans arrived)
          grind

/-! ## What the router does -/

variable [DecidableEq ι]

theorem mayFail_some {fails : Bool} {left : Wire ι}
    (served : lan.mayFail i fails left = some after) : left = after :=
  Option.some.inj (Option.ite_none_left_eq_some.mp served).2

theorem serve_now {l : Option Locals} {now : Instant}
    (served : lan.serve i w ⟨l, .now⟩ now = some after) : now = w.now ∧ w.act i lan.pace = after :=
  (Option.ite_none_right_eq_some.mp served).imp_right Option.some.inj

/-- Failing or not, the operation leaves the router about its next one. -/
theorem serve_idle {call : Call} {answer : call.Ans} (idle : Idle call.op)
    (served : lan.serve i w call answer = some after) :
    lan.Told i w call answer ∧ w.act i (lan.span call.op) = after := by
  obtain ⟨l, op⟩ := call
  cases op with
  | interfaceIpv4 iface =>
      cases answer with
      | none => exact ⟨nofun, mayFail_some served⟩
      | some ip =>
          obtain ⟨same, left⟩ := Option.ite_none_right_eq_some.mp served
          exact ⟨fun _ found => (Option.some.inj found).symm.trans same, Option.some.inj left⟩
  | now => exact serve_now served
  | handleSet state =>
      have left := Option.some.inj served
      rw [if_neg idle] at left
      exact ⟨trivial, left⟩
  | recvFrom => exact idle.elim
  | claim vip iface => exact idle.elim
  | release vip iface => exact idle.elim
  | sendTo packet => exact idle.elim
  | stopLoad => exact ⟨trivial, mayFail_some served⟩
  | openSocket ip => exact ⟨trivial, mayFail_some served⟩
  | healthy => exact ⟨trivial, mayFail_some served⟩
  | setReadTimeout timeout => exact ⟨trivial, mayFail_some served⟩

theorem Listens.act (listens : lan.Listens i deadline w) (other : i ≠ lan.lead) (span : Instant) :
    lan.Listens i deadline (w.act i span) :=
  ⟨sound_act listens.sound fun own => absurd own other, listens.hears⟩

/-- One operation of the router. -/
theorem does_idle {α : Type} {post : α → Wire ι → Prop} {call : Call} {next : call.Ans → Prog α}
    (other : i ≠ lan.lead) (idle : Idle call.op)
    (listens : lan.Listens i deadline w)
    (goes : ∀ later answer, lan.Told i later call answer →
      lan.Listens i deadline (later.act i (lan.span call.op)) →
      lan.Does i post (next answer) (later.act i (lan.span call.op))) :
    lan.Does i post (.call call next) w := by
  intro later frame answer after served
  have now := listens.frame frame
  obtain ⟨told, rfl⟩ := serve_idle idle served
  exact ⟨guarantees_act now.sound fun own => absurd own other,
    goes later answer told (now.act other _)⟩

variable {l : Locals}

/-- The router's loop goes round a Backup, or ends. -/
abbrev FollowPost (lan : Lan ι) (i : ι) : Locals ⊕ Exit → Wire ι → Prop :=
  Sum.elim (lan.Follows i) fun _ => lan.Sound

theorem does_follows (waiting : lan.Waiting i l)
    (listens : lan.Listens i l.masterDownDeadline w) :
    lan.Does i (lan.FollowPost i) (.done (.inl l)) w :=
  fun _ frame => ⟨waiting, listens.frame frame⟩

theorem does_exit (exit : Exit) (sound : lan.Sound w) :
    lan.Does i (lan.FollowPost i) (.done (.inr exit)) w :=
  fun _ frame => frame.sound sound

/-- An advertisement resets the timer. -/
theorem does_onDatagram (timely : lan.Timely) (other : i ≠ lan.lead) (waiting : lan.Waiting i l)
    (sound : lan.Sound w) {packet : Packet ι} (sent : packet ∈ w.sent)
    (arrived : w.arrived i ≠ none) :
    lan.Does i (lan.FollowPost i)
      ((lan.params i).onDatagram l (lan.datagram (.packet packet))) w := by
  obtain ⟨interval, centis, takes, far⟩ := onAdvertisement_heard timely other waiting.state
    waiting.priority waiting.preempt l.ifaceIp
  have elsewhere : lan.addr lan.lead ≠ l.ifaceIp := by
    rw [waiting.source]
    exact fun same => other (lan.addrInjective same).symm
  simp only [Params.onDatagram, parse_packet sound sent, if_neg elsewhere, takes]
  intro later frame now after served
  have stands := frame.sound sound
  obtain ⟨rfl, rfl⟩ := serve_now served
  refine ⟨guarantees_act stands fun own => absurd own other, does_follows
    ⟨waiting.source, waiting.state, waiting.priority, waiting.preempt⟩
    ⟨sound_act stands fun own => absurd own other, ?_⟩⟩
  have heard : lan.Hears i (later.now + Vrrp.centis centis) later :=
    hears_of_arrived stands (frame.arrived arrived) (Nat.add_le_add_left far _)
  exact heard

/-- The router has read everything, so its timer has not run out. -/
theorem does_onTimedOut_backup (timely : lan.Timely) (other : i ≠ lan.lead)
    (waiting : lan.Waiting i l) (listens : lan.Listens i l.masterDownDeadline w)
    (read : w.unread i = []) :
    lan.Does i (lan.FollowPost i) ((lan.params i).onTimedOut l) (w.act i lan.pace) := by
  have early := now_lt_of_read timely other listens read
  intro later frame now after served
  have stands := (listens.act other lan.pace).frame frame
  obtain ⟨rfl, rfl⟩ := serve_now served
  have soon : later.now ≤ w.now + lan.pace :=
    stands.sound.inTime i _ (frame.due.trans (w.act_due_self lan.pace))
  have notMaster : ¬ (l.vr.state = .master ∧ l.nextAdvert ≤ later.now) :=
    fun due => ne_master_of_backup waiting.state due.1
  have notDown : ¬ (l.vr.state = .backup ∧ l.masterDownDeadline ≤ later.now) := by
    rintro ⟨_, due⟩
    exact Nat.not_le.mpr early (due.trans soon)
  refine ⟨guarantees_act stands.sound fun own => absurd own other, ?_⟩
  simp only [Program.done_bind, if_neg notMaster, if_neg notDown]
  exact does_follows waiting (stands.act other _)

omit [DecidableEq ι] in
/-- Reading what is no packet leaves all packets to be read. -/
theorem hears_read {data : List UInt8} {rest : List (Arrival ι)}
    (unread : w.unread i = .noise data :: rest) (hears : lan.Hears i deadline w)
    (arrived : after.arrived i = w.arrived i) (left : after.unread i = rest) :
    lan.Hears i deadline after := by
  unfold Hears at hears ⊢
  rw [arrived, left]
  cases known : w.arrived i with
  | none =>
      rw [known] at hears
      exact hears
  | some earlier =>
      rw [known, unread] at hears
      refine hears.imp_right ?_
      rintro ⟨packet, waits, newer⟩
      exact ⟨packet, (List.mem_cons.mp waits).resolve_left nofun, newer⟩

/-- The router takes the oldest arrival from those it has not read. -/
theorem guarantees_read (other : i ≠ lan.lead) {arrival : Arrival ι}
    {rest : List (Arrival ι)} (unread : w.unread i = arrival :: rest) :
    lan.Guarantees i w ((w.read i rest).act i lan.pace) :=
  guarantees_of
    (fun sound => sound_act (sound_read sound unread) fun own => absurd own other)
    rfl (fun _ apart => Wire.act_due_of_ne _ apart _) rfl (fun _ apart => w.read_of_ne apart rest)
    (fun _ => rfl) fun _ _ => rfl

theorem does_receive (timely : lan.Timely) (other : i ≠ lan.lead) (waiting : lan.Waiting i l)
    (listens : lan.Listens i l.masterDownDeadline w) {next : Recv → Prog (Locals ⊕ Exit)}
    (datagram : ∀ data, next (.datagram data) = (lan.params i).onDatagram l data)
    (timedOut : next .timedOut = (lan.params i).onTimedOut l)
    (failed : next .failed = .done (.inr (.error .recv))) :
    lan.Does i (lan.FollowPost i) (.call ⟨some l, .recvFrom⟩ next) w := by
  intro later frame received after served
  have stands := listens.frame frame
  cases received with
  | datagram data =>
      rw [datagram]
      cases unread : later.unread i with
      | nil =>
          simp only [serve, unread] at served
          cases served
      | cons arrival rest =>
          simp only [serve, unread] at served
          obtain ⟨rfl, left⟩ := Option.ite_none_right_eq_some.mp served
          obtain rfl := Option.some.inj left
          refine ⟨guarantees_read other unread, ?_⟩
          have sound := sound_read stands.sound unread
          have first : arrival ∈ later.unread i := by
            rw [unread]
            exact List.mem_cons_self
          cases arrival with
          | packet packet =>
              obtain ⟨sent, arrived⟩ := (stands.sound.unread i _ first).2 packet rfl
              exact does_onDatagram timely other waiting
                (sound_act sound fun own => absurd own other) sent arrived
          | noise data =>
              have unknown : parseAdvertisement data (lan.params i).vrid = none := by
                rw [lan.sameVrid i]
                exact stands.sound.noise i data first
              have heard : lan.Listens i l.masterDownDeadline (later.read i rest) :=
                ⟨sound, hears_read unread stands.hears rfl (later.read_self rest)⟩
              change lan.Does i _ ((lan.params i).onDatagram l data) _
              simp only [Params.onDatagram, unknown]
              exact does_follows waiting (heard.act other _)
  | timedOut =>
      rw [timedOut]
      obtain ⟨read, left⟩ := Option.ite_none_right_eq_some.mp served
      obtain rfl := Option.some.inj left
      exact ⟨guarantees_act stands.sound fun own => absurd own other,
        does_onTimedOut_backup timely other waiting stands read⟩
  | failed =>
      rw [failed]
      obtain rfl := mayFail_some served
      exact ⟨guarantees_act stands.sound fun own => absurd own other,
        does_exit _ (stands.act other _).sound⟩

/-- The handle is marked stopped. -/
theorem does_leave (other : i ≠ lan.lead) {program : Prog (Locals ⊕ Exit)}
    (does : lan.Does i (lan.FollowPost i) program w) :
    lan.Does i (lan.FollowPost i) (program.bind Params.leave) w := by
  refine does.bind (Frame.refl i) ?_
  rintro (l | exit) world ended
  · exact does_follows ended.1 ended.2
  · intro later frame shown after served
    have sound : lan.Sound later := frame.sound ended
    obtain rfl := Option.some.inj served
    refine ⟨?_, does_exit exit (sound_rest sound other)⟩
    exact guarantees_of (fun sound => sound_rest sound other) rfl
      (fun _ apart => later.rest_due_of_ne apart) rfl (fun _ _ => rfl) (fun _ => rfl) fun _ _ => rfl

theorem does_turn_backup (timely : lan.Timely) (other : i ≠ lan.lead) (follows : lan.Follows i l w) :
    lan.Does i (lan.FollowPost i) ((lan.params i).turnRun l) w := by
  obtain ⟨waiting, listens⟩ := follows
  refine does_leave other (does_idle other trivial listens fun asked stop _ stood => ?_)
  have notMaster : l.vr.state ≠ .master := ne_master_of_backup waiting.state
  have started : l.vr.state ≠ .init := ne_init_of_backup waiting.state
  cases stop with
  | true =>
      simp only [Program.done_bind, if_true, Params.stopped, if_neg notMaster]
      exact does_exit _ stood.sound
  | false =>
      refine does_idle other trivial stood fun told healthy _ stood => ?_
      have stays : l.vr.onHealth healthy = (false, l.vr) := if_neg fun both => notMaster both.1
      simp only [Program.done_bind, stays]
      change lan.Does i _ ((lan.params i).await l) _
      refine does_idle other started stood fun shown _ _ stood => ?_
      refine does_idle other trivial stood fun read now _ stood => ?_
      refine does_idle other trivial stood fun waited isSet _ stood => ?_
      cases isSet with
      | true => exact does_receive timely other waiting stood (fun _ => rfl) rfl rfl
      | false => exact does_exit _ stood.sound

/-- The router starts as a Backup, whose timer is the others' last to run out. -/
theorem does_start_backup (timely : lan.Timely) (other : i ≠ lan.lead) :
    lan.Does i (lan.FollowPost i) (lan.params i).startRun (.start lan.pace) := by
  have listens : lan.Listens i (centis (lan.params i).router.masterDownIntervalCentis)
      (.start lan.pace) := ⟨sound_start, Nat.le_refl _⟩
  refine does_leave other (does_idle other trivial listens fun looked found told stood => ?_)
  cases found with
  | none => exact does_exit _ stood.sound
  | some ip =>
      obtain rfl := told ip rfl
      refine does_idle other trivial stood fun bound opened _ stood => ?_
      cases opened with
      | false => exact does_exit _ stood.sound
      | true =>
          refine does_idle other trivial stood fun asked healthy _ stood => ?_
          have backup : ((lan.params i).router.start healthy).state = .backup :=
            if_neg fun owner => timely.noOwner i other owner.1
          have started : ((lan.params i).router.start healthy).state ≠ .init :=
            ne_init_of_backup backup
          have notMaster : ((lan.params i).router.start healthy).state ≠ .master :=
            ne_master_of_backup backup
          refine does_idle other started stood fun shown _ _ stood => ?_
          refine does_idle other trivial stood fun begun nextAdvert _ stood => ?_
          refine does_idle other trivial stood fun timed now _ stood => ?_
          simp only [Program.done_bind, if_neg notMaster]
          exact does_follows ⟨rfl, backup, rfl, rfl⟩
            ⟨stood.sound, stood.hears.later (Nat.le_add_left _ _)⟩

end Lan

end StormLb.Vrrp
