import StormLb.Vrrp.DueTimers
import StormLb.Vrrp.LanMoves

/-!
# The router that works throughout

It becomes Master when its timer runs out, advertises in time, and never stops.
-/

namespace StormLb.Vrrp

open StormLb.Net StormLb.Effects StormLb.Heartbeat

open Program (Honours)

/-- A healthy router does not resign. -/
theorem VirtualRouter.onHealth_true (vr : VirtualRouter) : vr.onHealth true = (false, vr) :=
  if_neg fun resigns => Bool.false_ne_true resigns.2.symm

namespace Lan

/-! ## The router that works throughout -/

section

variable {ι : Type} (lan : Lan ι)

/-- When the next advertisement is sent at the latest, after these. -/
def nextOf (sent : List (Packet ι)) : Instant :=
  Heartbeat.nextBy lan.first lan.gap (sent.map Packet.sentAt)

/-- What was sent, whether the router has the VIP, and by when it acts. -/
structure Stands (sent : List (Packet ι)) (held : Bool) (latest : Instant) (w : Wire ι) : Prop where
  sound : lan.Sound w
  sent : w.sent = sent
  held : w.holds lan.lead = held
  due : ∃ moment, w.due lan.lead = some moment ∧ moment ≤ latest

/-- For how long a loop is about its next operation. -/
def span : Op → Instant
  | .setReadTimeout timeout => timeout + lan.pace
  | _ => lan.pace

/-- The operations that do nothing to the LAN and the VIP, when they succeed. -/
def Plain : Op → Prop
  | .claim .. | .release .. | .sendTo _ => False
  | .handleSet state => state ≠ .init
  | _ => True

/-- What the router gets. -/
def Gets (w : Wire ι) : (call : Call) → call.Ans → Prop
  | ⟨_, .interfaceIpv4 _⟩, found => found = some (lan.addr lan.lead)
  | ⟨_, .openSocket _⟩, opened => opened = true
  | ⟨_, .healthy⟩, healthy => healthy = true
  | ⟨_, .now⟩, now => now = w.now
  | ⟨_, .stopLoad⟩, stop => stop = false
  | ⟨_, .setReadTimeout _⟩, isSet => isSet = true
  | ⟨_, .recvFrom⟩, received => received = .timedOut
  | _, _ => True

/-- The router goes by the timers that the LAN's promises are about. -/
structure Leading (l : Locals) (sent : List (Packet ι)) (held : Bool) : Prop where
  source : l.ifaceIp = lan.addr lan.lead
  state : (l.vr.state = .backup ∧ sent = [] ∧ l.masterDownDeadline + 2 * lan.slack ≤ lan.first) ∨
    (l.vr.state = .master ∧ held = true ∧ l.nextAdvert + lan.slack ≤ lan.nextOf sent)

/-- The router at the head of its loop. -/
def Leads (l : Locals) (w : Wire ι) : Prop :=
  ∃ sent held, lan.Leading l sent held ∧ lan.Stands sent held (l.deadline + 3 * lan.pace) w

end

variable {ι : Type} {lan : Lan ι} {w after : Wire ι} {sent : List (Packet ι)} {held : Bool}
  {latest : Instant}

theorem Stands.frame (stands : lan.Stands sent held latest w) (frame : lan.Frame lan.lead w after) :
    lan.Stands sent held latest after where
  sound := frame.sound stands.sound
  sent := (frame.sent rfl).trans stands.sent
  held := (frame.holds rfl).trans stands.held
  due := by
    rw [frame.due]
    exact stands.due

/-- The router is not late. -/
theorem Stands.now_le (stands : lan.Stands sent held latest w) : w.now ≤ latest := by
  obtain ⟨moment, due, before⟩ := stands.due
  exact (stands.sound.inTime _ _ due).trans before

theorem Stands.weaken {more : Instant} (stands : lan.Stands sent held latest w)
    (le : latest ≤ more) : lan.Stands sent held more w := by
  obtain ⟨moment, due, before⟩ := stands.due
  exact ⟨stands.sound, stands.sent, stands.held, moment, due, before.trans le⟩

variable [DecidableEq ι]

theorem Stands.act (stands : lan.Stands sent held latest w) {span : Instant}
    (room : w.now + span ≤ lan.nextOf sent) :
    lan.Stands sent held (w.now + span) (w.act lan.lead span) where
  sound := sound_act stands.sound fun _ => by
    rw [nextBy, Wire.times, stands.sent]
    exact room
  sent := stands.sent
  held := stands.held
  due := ⟨_, w.act_due_self span, Nat.le_refl _⟩

theorem mayFail_lead {fails : Bool} {left : Wire ι}
    (served : lan.mayFail lan.lead fails left = some after) : fails = false ∧ left = after := by
  unfold mayFail at served
  split at served
  · cases served
  · rename_i fine
    cases fails with
    | true => exact absurd ⟨rfl, rfl⟩ fine
    | false => exact ⟨rfl, Option.some.inj served⟩

theorem mayFail_lead_not {succeeds : Bool} {left : Wire ι}
    (served : lan.mayFail lan.lead (!succeeds) left = some after) :
    succeeds = true ∧ left = after := by
  obtain ⟨fine, same⟩ := mayFail_lead served
  exact ⟨by simpa using fine, same⟩

/-- Nothing fails at the router, and nothing arrives there. -/
theorem serve_lead (sound : lan.Sound w) {call : Call} {answer : call.Ans} (plain : Plain call.op)
    (served : lan.serve lan.lead w call answer = some after) :
    lan.Gets w call answer ∧ w.act lan.lead (lan.span call.op) = after := by
  obtain ⟨l, op⟩ := call
  cases op with
  | interfaceIpv4 iface =>
      cases answer with
      | none => cases (mayFail_lead served).1
      | some ip =>
          obtain ⟨same, left⟩ := Option.ite_none_right_eq_some.mp served
          exact ⟨congrArg some same, Option.some.inj left⟩
  | now =>
      obtain ⟨same, left⟩ := Option.ite_none_right_eq_some.mp served
      exact ⟨same, Option.some.inj left⟩
  | handleSet state =>
      have left := Option.some.inj served
      rw [if_neg plain] at left
      exact ⟨trivial, left⟩
  | recvFrom =>
      have quiet : w.unread lan.lead = [] := by
        refine List.eq_nil_iff_forall_not_mem.mpr fun arrival member => ?_
        exact (sound.unread _ arrival member).1 rfl
      cases answer with
      | datagram data =>
          simp only [serve, quiet] at served
          cases served
      | timedOut =>
          obtain ⟨_, left⟩ := Option.ite_none_right_eq_some.mp served
          exact ⟨rfl, Option.some.inj left⟩
      | failed => cases (mayFail_lead served).1
  | claim vip iface => exact plain.elim
  | release vip iface => exact plain.elim
  | sendTo packet => exact plain.elim
  | stopLoad => exact mayFail_lead served
  | openSocket ip => exact mayFail_lead_not served
  | healthy => exact mayFail_lead_not served
  | setReadTimeout timeout => exact mayFail_lead_not served

section

variable {α : Type} {post : α → Wire ι → Prop}

/-- What the router's programs are shown to do. -/
abbrev Does (lan : Lan ι) (i : ι) (post : α → Wire ι → Prop) : Prog α → Wire ι → Prop :=
  Honours (lan.serve i) (lan.Frame i) (lan.Guarantees i) post

/-- One operation of the router. -/
theorem does_plain {call : Call} {next : call.Ans → Prog α} (plain : Plain call.op)
    (stands : lan.Stands sent held latest w)
    (room : latest + lan.span call.op ≤ lan.nextOf sent)
    (goes : ∀ later answer, w.now ≤ later.now → later.now ≤ latest → lan.Gets later call answer →
      lan.Stands sent held (later.now + lan.span call.op)
        (later.act lan.lead (lan.span call.op)) →
      lan.Does lan.lead post (next answer) (later.act lan.lead (lan.span call.op))) :
    lan.Does lan.lead post (.call call next) w := by
  intro later frame answer after served
  have now := stands.frame frame
  obtain ⟨gets, rfl⟩ := serve_lead now.sound plain served
  have enough : later.now + lan.span call.op ≤ lan.nextOf sent :=
    (Nat.add_le_add_right now.now_le _).trans room
  refine ⟨guarantees_act now.sound fun _ => ?_, goes later answer frame.now now.now_le gets
    (now.act enough)⟩
  rw [nextBy, Wire.times, now.sent]
  exact enough

/-- The router claims the VIP. -/
theorem does_claim {l : Option Locals} {vip iface : String} {next : Bool → Prog α}
    (stands : lan.Stands sent held latest w) (room : latest + lan.pace ≤ lan.nextOf sent)
    (goes : ∀ later : Wire ι, w.now ≤ later.now → later.now ≤ latest →
      lan.Stands sent true (later.now + lan.pace)
        ((later.hold lan.lead true).act lan.lead lan.pace) →
      lan.Does lan.lead post (next true) ((later.hold lan.lead true).act lan.lead lan.pace)) :
    lan.Does lan.lead post (.call ⟨l, .claim vip iface⟩ next) w := by
  intro later frame answer after served
  have now := stands.frame frame
  obtain ⟨rfl, rfl⟩ := mayFail_lead_not served
  have held : lan.Stands sent true latest (later.hold lan.lead true) :=
    ⟨sound_hold now.sound, now.sent, later.hold_self true, now.due⟩
  have stood := held.act ((Nat.add_le_add_right now.now_le _).trans room)
  refine ⟨guarantees_of (fun _ => stood.sound) rfl (fun j other => ?_) rfl (fun _ _ => rfl)
    (fun _ => rfl) (fun j other => ?_), goes later frame.now now.now_le stood⟩
  · exact Wire.act_due_of_ne _ other _
  · exact later.hold_of_ne other true

/-- The router advertises. -/
theorem does_send {l : Option Locals} {next : Bool → Prog α}
    (stands : lan.Stands sent true latest w)
    (goes : ∀ (later : Wire ι) (packet : Packet ι), w.now ≤ later.now → later.now ≤ latest →
      packet.sentAt = later.now →
      lan.Stands (packet :: sent) true (later.now + lan.pace)
        ((later.send lan.lead lan.advertisement).act lan.lead lan.pace) →
      lan.Does lan.lead post (next true)
        ((later.send lan.lead lan.advertisement).act lan.lead lan.pace)) :
    lan.Does lan.lead post (.call ⟨l, .sendTo lan.advertisement⟩ next) w := by
  intro later frame answer after served
  have now := stands.frame frame
  obtain ⟨rfl, rfl⟩ := mayFail_lead_not served
  have sound := sound_send now.sound now.held
  have stood : lan.Stands (⟨later.now, lan.lead, lan.advertisement⟩ :: sent) true
      (later.now + lan.pace) ((later.send lan.lead lan.advertisement).act lan.lead lan.pace) :=
    ⟨sound, congrArg _ now.sent, now.held, _, Wire.act_due_self _ _, Nat.le_refl _⟩
  refine ⟨⟨fun _ => sound, fun j other => ?_⟩, goes later _ frame.now now.now_le rfl stood⟩
  exact {
    now := Nat.le_refl _
    due := Wire.act_due_of_ne _ other _
    arrived := id
    hears := fun _ => id
    sent := fun same => absurd same other
    holds := fun same => absurd same other
    sound := fun _ => sound }

end

variable {l : Locals}

/-- The router's loop goes round, and never ends. -/
abbrev LeadPost (lan : Lan ι) : Locals ⊕ Exit → Wire ι → Prop :=
  Sum.elim lan.Leads fun _ _ => False

theorem does_leads (leading : lan.Leading l sent held) (stands : lan.Stands sent held latest w)
    (soon : latest ≤ l.deadline + 3 * lan.pace) :
    lan.Does lan.lead lan.LeadPost (.done (.inl l)) w :=
  fun _ frame => ⟨sent, held, leading, (stands.frame frame).weaken soon⟩

omit [DecidableEq ι] in
theorem Leading.deadline_le (leading : lan.Leading l sent held) :
    l.deadline + lan.slack ≤ lan.nextOf sent := by
  rcases leading.state with ⟨backup, rfl, before⟩ | ⟨master, _, before⟩
  · rw [Locals.deadline, if_neg (ne_master_of_backup backup)]
    change _ ≤ lan.first
    grind
  · rw [Locals.deadline, if_pos master]
    exact before

omit [DecidableEq ι] in
theorem packet_eq (source : l.ifaceIp = lan.addr lan.lead) :
    (lan.params lan.lead).packet l (lan.params lan.lead).priority = lan.advertisement := by
  rw [Params.packet, source]
  rfl

/-- Nothing came in time: the router advertises, takes over, or waits on. -/
theorem does_onTimedOut (leading : lan.Leading l sent held)
    (stands : lan.Stands sent held latest w)
    (soon : latest ≤ l.deadline + 9 * lan.pace + millis 10) :
    lan.Does lan.lead lan.LeadPost ((lan.params lan.lead).onTimedOut l) w := by
  have room := leading.deadline_le
  refine does_plain trivial stands (by grind [slack, span]) fun later now _ before gets stood => ?_
  obtain rfl : now = later.now := gets
  change lan.Does lan.lead lan.LeadPost (if _ then _ else _) _
  split
  · -- The Master's advertisement is due.
    rename_i due
    obtain ⟨master, _⟩ := due
    obtain ⟨backup, _⟩ | ⟨_, rfl, next⟩ := leading.state
    · cases master.symm.trans backup
    · change lan.Does lan.lead lan.LeadPost (.call ⟨some l, .sendTo _⟩ fun _ => .done _) _
      rw [packet_eq leading.source]
      refine does_send stood fun moment packet after soon sentAt left => ?_
      refine does_leads ⟨leading.source, .inr ⟨master, rfl, ?_⟩⟩ left ?_
      · change later.now + lan.interval + lan.slack ≤ packet.sentAt + (lan.interval + lan.slack)
        rw [sentAt, Nat.add_assoc]
        exact Nat.add_le_add_right after _
      · rw [Locals.deadline, if_pos master]
        change _ ≤ later.now + lan.interval + 3 * lan.pace
        grind [span]
  · split
    · -- The timer ran out.
      rename_i due
      obtain ⟨backup, _⟩ := due
      obtain ⟨_, rfl, start⟩ | ⟨master, _⟩ := leading.state
      · have deadline : l.deadline = l.masterDownDeadline := if_neg (ne_master_of_backup backup)
        have atFirst : lan.nextOf [] = lan.first := rfl
        refine does_plain trivial stood (by grind [slack, span])
          fun asked healthy _ soon gets sound => ?_
        obtain rfl : healthy = true := gets
        have takes : l.vr.onMasterDownTimeout true = (true, _) := if_pos ⟨backup, rfl⟩
        rw [Program.done_bind, takes]
        refine does_claim sound (by grind [slack, span]) fun claimed _ last holding => ?_
        refine does_leads ⟨leading.source, .inr ⟨rfl, rfl, ?_⟩⟩ holding ?_
        · change later.now + lan.slack ≤ lan.nextOf []
          grind [slack]
        · change _ ≤ later.now + 3 * lan.pace
          grind [span]
      · cases backup.symm.trans master
    · -- Nothing is due yet.
      rename_i notAdvert notTimer
      refine does_leads leading stood ?_
      rcases leading.state with ⟨backup, _, _⟩ | ⟨master, _, _⟩
      · have deadline : l.deadline = l.masterDownDeadline := if_neg (ne_master_of_backup backup)
        grind [span]
      · have deadline : l.deadline = l.nextAdvert := if_pos master
        grind [span]

omit [DecidableEq ι] in
/-- A turn waits for its deadline, or for the shortest time. -/
theorem readTimeout_le (l : Locals) (now : Instant) :
    now + Params.readTimeout l now ≤ max (now + millis 10) (max now l.deadline) := by
  have wait : Params.readTimeout l now = max (millis 10) (min (millis 500) (l.deadline - now)) := rfl
  rw [wait]
  generalize millis 10 = shortest
  generalize millis 500 = longest
  grind

theorem does_await (leading : lan.Leading l sent held) (stands : lan.Stands sent held latest w)
    (soon : latest ≤ l.deadline + 5 * lan.pace) :
    lan.Does lan.lead lan.LeadPost ((lan.params lan.lead).await l) w := by
  have room := leading.deadline_le
  have started : l.vr.state ≠ .init := by
    rcases leading.state with ⟨backup, _⟩ | ⟨master, _⟩
    · exact ne_init_of_backup backup
    · exact ne_init_of_master master
  refine does_plain started stands (by grind [slack, span]) fun shown _ _ soon _ stood => ?_
  refine does_plain trivial stood (by grind [slack, span]) fun read now _ early gets stood => ?_
  obtain rfl : now = read.now := gets
  have wait := readTimeout_le l read.now
  refine does_plain trivial stood (by grind [slack, span]) fun set_ isSet _ before gets stood => ?_
  obtain rfl : isSet = true := gets
  refine does_plain trivial stood (by grind [slack, span]) fun waited received _ late gets stood => ?_
  obtain rfl : received = .timedOut := gets
  refine does_onTimedOut leading stood ?_
  grind [span]

/-- As the loop never ends, its handle is never marked stopped. -/
theorem does_round {program : Prog (Locals ⊕ Exit)}
    (does : lan.Does lan.lead lan.LeadPost program w) :
    lan.Does lan.lead lan.LeadPost (program.bind Params.leave) w := by
  refine does.bind (Frame.refl lan.lead) ?_
  rintro (l | exit) world leads
  · obtain ⟨sent, held, leading, stands⟩ := leads
    exact does_leads leading stands (Nat.le_refl _)
  · exact leads.elim

/-- A turn of the router that works throughout. -/
theorem does_turn (leads : lan.Leads l w) :
    lan.Does lan.lead lan.LeadPost ((lan.params lan.lead).turnRun l) w := by
  obtain ⟨sent, held, leading, stands⟩ := leads
  have room := leading.deadline_le
  have turned : lan.Does lan.lead lan.LeadPost ((lan.params lan.lead).turnLoop l) w := by
    refine does_plain trivial stands (by grind [slack, span]) fun later stop _ soon gets stood => ?_
    obtain rfl : stop = false := gets
    refine does_plain trivial stood (by grind [slack, span]) fun asked healthy _ soon gets stood => ?_
    obtain rfl : healthy = true := gets
    simp only [Program.done_bind, l.vr.onHealth_true]
    change lan.Does lan.lead lan.LeadPost ((lan.params lan.lead).await l) _
    refine does_await leading stood ?_
    grind [span]
  exact does_round turned

omit [DecidableEq ι] in
theorem sound_start : lan.Sound (.start lan.pace) where
  inTime _ _ _ := Nat.zero_le _
  awake := by
    refine ⟨lan.pace, rfl, ?_⟩
    change lan.pace ≤ lan.first
    grind [first]
  paced := trivial
  sent := nofun
  underWay := nofun
  unread := nofun
  noise := nofun
  arrived := nofun
  reaches := nofun
  alone := nofun
  holds nothing := absurd rfl nothing

/-- The start of the router that works throughout. -/
theorem does_start : lan.Does lan.lead lan.LeadPost (lan.params lan.lead).startRun
    (.start lan.pace) := by
  have room : lan.nextOf [] = lan.wait + 6 * lan.pace + 2 * lan.slack := rfl
  have slack : lan.slack = 10 * lan.pace + millis 10 := rfl
  have stands : lan.Stands [] false lan.pace (.start lan.pace) :=
    ⟨sound_start, rfl, rfl, _, rfl, Nat.le_refl _⟩
  have started : lan.Does lan.lead lan.LeadPost (lan.params lan.lead).startLoop
      (.start lan.pace) := by
    refine does_plain trivial stands (by grind [span]) fun found ip _ soon gets stood => ?_
    obtain rfl : ip = some (lan.addr lan.lead) := gets
    refine does_plain trivial stood (by grind [span]) fun bound opened _ soon gets stood => ?_
    obtain rfl : opened = true := gets
    refine does_plain trivial stood (by grind [span]) fun asked healthy _ soon gets stood => ?_
    obtain rfl : healthy = true := gets
    have running : ((lan.params lan.lead).router.start true).state ≠ .init := by
      rcases (lan.params lan.lead).router.start_state true with ⟨master, _⟩ | backup
      · exact ne_init_of_master master
      · exact ne_init_of_backup backup
    refine does_plain running stood (by grind [span]) fun shown _ _ soon _ stood => ?_
    refine does_plain trivial stood (by grind [span]) fun begun nextAdvert _ soon gets stood => ?_
    obtain rfl : nextAdvert = begun.now := gets
    refine does_plain trivial stood (by grind [span]) fun timed now _ soon gets stood => ?_
    obtain rfl : now = timed.now := gets
    simp only [Program.done_bind]
    by_cases owner : (lan.params lan.lead).priority = 255
    · have master : ((lan.params lan.lead).router.start true).state = .master :=
        if_pos ⟨owner, rfl⟩
      rw [if_pos master]
      refine does_claim stood (by grind [span]) fun claimed _ last holding => ?_
      refine does_leads ⟨rfl, .inr ⟨master, rfl, ?_⟩⟩ holding ?_
      · change begun.now + lan.slack ≤ lan.nextOf []
        grind [span]
      · rw [Locals.deadline, if_pos master]
        change _ ≤ begun.now + 3 * lan.pace
        grind [span]
    · have backup : ((lan.params lan.lead).router.start true).state = .backup :=
        if_neg fun both => owner both.1
      have other : ((lan.params lan.lead).router.start true).state ≠ .master :=
        ne_master_of_backup backup
      have waits : lan.wait = centis (lan.params lan.lead).router.masterDownIntervalCentis :=
        if_neg owner
      rw [if_neg other]
      refine does_leads ⟨rfl, .inl ⟨backup, rfl, ?_⟩⟩ stood ?_
      · change timed.now + centis (lan.params lan.lead).router.masterDownIntervalCentis +
          2 * lan.slack ≤ lan.first
        rw [← waits]
        grind [first, span]
      · rw [Locals.deadline, if_neg other]
        change _ ≤ timed.now + centis (lan.params lan.lead).router.masterDownIntervalCentis +
          3 * lan.pace
        grind [span]
  exact does_round started

end Lan

end StormLb.Vrrp
