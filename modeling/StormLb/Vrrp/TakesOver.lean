import StormLb.Vrrp.Following

/-!
# A silent Master is replaced in time

A router whose node works throughout may hear anything at any time.  Unless it
has the VIP, it read a datagram a moment ago, or another's advertisement not
longer ago than the longest Master_Down_Interval.
-/

namespace StormLb.Vrrp

open StormLb.Net StormLb.Effects

open Program (Honours)

/-- A router that works throughout. -/
structure Heir where
  params : Params
  ip : Ipv4Addr
  /-- From one operation of the loop to its next, and from a timeout to its notice. -/
  pace : Instant
  /-- The longest interval that is advertised, in hundredths. -/
  longest : Nat
  own : params.router.advertIntervalCentis.toNat ≤ longest
  positive : 1 ≤ longest

/-- The time, the loop's next operation, what it read last, and whether it has the VIP. -/
structure Watch where
  now : Instant
  /-- By when the loop performs its next operation. -/
  due : Instant
  /-- When the router read a datagram. -/
  read : Instant
  /-- When it read another's advertisement. -/
  told : Instant
  holds : Bool
  deriving DecidableEq, Repr

namespace Watch

def start (pace : Instant) : Watch where
  now := 0
  due := pace
  read := 0
  told := 0
  holds := false

/-- The loop performs an operation, and is about its next one for so long. -/
def act (w : Watch) (span : Instant) : Watch :=
  { w with due := w.now + span }

def hold (w : Watch) (holds : Bool) : Watch :=
  { w with holds }

/-- Time passes. -/
structure Passes (w after : Watch) : Prop where
  onward : w.now ≤ after.now
  inTime : w.now ≤ w.due → after.now ≤ w.due
  same : after = { w with now := after.now }

theorem Passes.refl (w : Watch) : Passes w w :=
  ⟨Nat.le_refl _, id, rfl⟩

theorem Passes.trans {a b c : Watch} (first : Passes a b) (second : Passes b c) : Passes a c := by
  have due : b.due = a.due := by rw [first.same]
  refine ⟨first.onward.trans second.onward, fun inTime => ?_, ?_⟩
  · rw [← due]
    refine second.inTime ?_
    rw [due]
    exact first.inTime inTime
  · rw [second.same, first.same]

/-- What the router read, whether it has the VIP, and by when it acts. -/
structure Stands (w : Watch) (read told : Instant) (held : Bool) (latest : Instant) : Prop where
  inTime : w.now ≤ w.due
  due : w.due ≤ latest
  before : told ≤ w.now
  read : w.read = read
  told : w.told = told
  held : w.holds = held

variable {w after : Watch} {read told latest : Instant} {held : Bool}

theorem Stands.passed (stands : w.Stands read told held latest) (passed : Passes w after) :
    after.Stands read told held latest := by
  have same := passed.same
  have due : after.due = w.due := by rw [same]
  refine ⟨?_, due ▸ stands.due, stands.before.trans passed.onward, ?_, ?_, ?_⟩
  · rw [due]
    exact passed.inTime stands.inTime
  · rw [same]
    exact stands.read
  · rw [same]
    exact stands.told
  · rw [same]
    exact stands.held

theorem Stands.now_le (stands : w.Stands read told held latest) : w.now ≤ latest :=
  stands.inTime.trans stands.due

theorem Stands.act (stands : w.Stands read told held latest) (span : Instant) :
    (w.act span).Stands read told held (w.now + span) :=
  ⟨Nat.le_add_right _ _, Nat.le_refl _, stands.before, stands.read, stands.told, stands.held⟩

end Watch

open Watch (Passes)

/-- A router acts soon after its deadline, or after it read something. -/
def Locals.Near (l : Locals) (read : Instant) (held : Bool) (latest within : Instant) : Prop :=
  held = true ∨ latest ≤ l.masterDownDeadline + within ∨ latest ≤ read + within

namespace Heir

section

variable (heir : Heir)

/-- It is another's advertisement. -/
def advises (data : List UInt8) : Bool :=
  match parseAdvertisement data heir.params.vrid with
  | some a => a.src ≠ heir.ip
  | none => false

def short (data : List UInt8) : Bool :=
  match parseAdvertisement data heir.params.vrid with
  | some a => a.intervalCentis.toNat ≤ heir.longest
  | none => true

/-- Nothing fails but sending and releasing. -/
def allows (w : Watch) : (call : Call) → call.Ans → Bool
  | ⟨_, .interfaceIpv4 _⟩, found => found = some heir.ip
  | ⟨_, .openSocket _⟩, opened => opened
  | ⟨_, .healthy⟩, healthy => healthy
  | ⟨_, .now⟩, now => now = w.now
  | ⟨_, .claim _ _⟩, claimed => claimed
  | ⟨_, .stopLoad⟩, stop => !stop
  | ⟨_, .setReadTimeout _⟩, isSet => isSet
  | ⟨_, .recvFrom⟩, .datagram data => heir.short data
  | ⟨_, .recvFrom⟩, .failed => false
  | _, _ => true

def effect (w : Watch) : (call : Call) → call.Ans → Watch
  | ⟨_, .claim _ _⟩, true => w.hold true
  | ⟨_, .release _ _⟩, true => w.hold false
  | ⟨_, .recvFrom⟩, .datagram data =>
      { w with read := w.now, told := if heir.advises data then w.now else w.told }
  | _, _ => w

/-- For how long the loop is about its next operation. -/
def span : Op → Instant
  | .setReadTimeout timeout => timeout + heir.pace
  | _ => heir.pace

def serve (w : Watch) (call : Call) (answer : call.Ans) : Option Watch :=
  if heir.allows w call answer then some ((heir.effect w call answer).act (heir.span call.op))
  else none

/-- The loop, while time passes no further than to its next operation. -/
def loop : Threads Unit Call Call.Ans Locals Exit Watch where
  first _ := heir.params.startRun
  body _ := heir.params.turnRun
  serves _ := heir.serve
  drifts w after := ∃ later, w.now ≤ later ∧ later ≤ w.due ∧ after = { w with now := later }

/-- The longest Master_Down_Interval: Skew_Time is an interval at most. -/
def patience : Instant :=
  millis (4 * heir.longest * 10)

/-- How late the loop may be: two turns, and the shortest wait. -/
def slack : Instant :=
  20 * heir.pace + millis 10

/-- The router acts by then, or it has the VIP. -/
def Room (read told : Instant) (held : Bool) (latest : Instant) : Prop :=
  held = true ∨ latest ≤ told + heir.patience + heir.slack ∨ latest ≤ read + heir.slack

structure Fine (w : Watch) : Prop where
  inTime : w.now ≤ w.due
  soon : heir.Room w.read w.told w.holds w.due

/-- No interval the router knows is longer. -/
structure Fit (vr : VirtualRouter) : Prop where
  learned : vr.masterAdverIntervalCentis.toNat ≤ heir.longest
  own : vr.advertIntervalCentis.toNat ≤ heir.longest

/-- The router goes by timers that were set when it was told last. -/
structure Knows (l : Locals) (told : Instant) (held : Bool) : Prop where
  source : l.ifaceIp = heir.ip
  fit : heir.Fit l.vr
  state : (l.vr.state = .master ∧ held = true) ∨
    (l.vr.state = .backup ∧ l.masterDownDeadline ≤ told + heir.patience + 7 * heir.pace)

/-- The router at the head of its loop. -/
def Heads (l : Locals) (w : Watch) : Prop :=
  ∃ read told held latest, heir.Knows l told held ∧ w.Stands read told held latest ∧
    l.Near read held latest (3 * heir.pace)

/-- The operations that leave the VIP alone, and hear nothing. -/
def Quiet : Op → Prop
  | .claim .. | .release .. | .recvFrom => False
  | _ => True

/-- What the router's programs are shown to do. -/
abbrev Does {α : Type} (post : α → Watch → Prop) : Prog α → Watch → Prop :=
  Honours heir.serve Passes (fun _ after => heir.Fine after) post

/-- The router's loop goes round, and never ends. -/
abbrev HeadPost : Locals ⊕ Exit → Watch → Prop :=
  Sum.elim heir.Heads fun _ _ => False

end

variable {heir : Heir} {w after : Watch} {read told latest : Instant} {held : Bool}

theorem Room.weaken {sooner : Instant} (room : heir.Room read told held latest)
    (le : sooner ≤ latest) : heir.Room read told held sooner := by
  rcases room with holds | soon | soon
  · exact .inl holds
  · exact .inr (.inl (le.trans soon))
  · exact .inr (.inr (le.trans soon))

theorem Fine.of_stands (stands : w.Stands read told held latest)
    (room : heir.Room read told held latest) : heir.Fine w := by
  refine ⟨stands.inTime, ?_⟩
  rw [stands.read, stands.told, stands.held]
  exact room.weaken stands.due

section

variable {α : Type} {post : α → Watch → Prop}

theorem serve_some {call : Call} {answer : call.Ans}
    (served : heir.serve w call answer = some after) :
    heir.allows w call answer = true ∧
      (heir.effect w call answer).act (heir.span call.op) = after :=
  (Option.ite_none_right_eq_some.mp served).imp_right Option.some.inj

theorem effect_quiet {call : Call} (quiet : Quiet call.op) (answer : call.Ans) :
    heir.effect w call answer = w := by
  obtain ⟨l, op⟩ := call
  cases op with
  | claim vip iface => exact quiet.elim
  | release vip iface => exact quiet.elim
  | recvFrom => exact quiet.elim
  | _ => rfl

/-- One operation of the router. -/
theorem does_quiet {call : Call} {next : call.Ans → Prog α} (quiet : Quiet call.op)
    (stands : w.Stands read told held latest)
    (room : heir.Room read told held (latest + heir.span call.op))
    (goes : ∀ later answer, w.now ≤ later.now → later.now ≤ latest →
      heir.allows later call answer = true →
      (later.act (heir.span call.op)).Stands read told held (later.now + heir.span call.op) →
      heir.Does post (next answer) (later.act (heir.span call.op))) :
    heir.Does post (.call call next) w := by
  intro later passed answer after served
  have now := stands.passed passed
  obtain ⟨allowed, rfl⟩ := serve_some served
  rw [effect_quiet quiet]
  have acted := now.act (heir.span call.op)
  exact ⟨Fine.of_stands acted (room.weaken (Nat.add_le_add_right now.now_le _)),
    goes later answer passed.onward now.now_le allowed acted⟩

/-- The router claims the VIP. -/
theorem does_claim {l : Option Locals} {vip iface : String} {next : Bool → Prog α}
    (stands : w.Stands read told held latest)
    (goes : ∀ later : Watch,
      ((later.hold true).act heir.pace).Stands read told true (later.now + heir.pace) →
      heir.Does post (next true) ((later.hold true).act heir.pace)) :
    heir.Does post (.call ⟨l, .claim vip iface⟩ next) w := by
  intro later passed answer after served
  have now := stands.passed passed
  obtain ⟨rfl, rfl⟩ := serve_some served
  have holding : (later.hold true).Stands read told true latest :=
    ⟨now.inTime, now.due, now.before, now.read, now.told, rfl⟩
  have acted := holding.act heir.pace
  exact ⟨Fine.of_stands acted (.inl rfl), goes later acted⟩

/-- The router releases the VIP, or fails to. -/
theorem does_release {l : Option Locals} {vip iface : String} {next : Bool → Prog α}
    (stands : w.Stands read told held latest) (soon : latest + heir.pace ≤ read + heir.slack)
    (goes : ∀ (later released : Watch) (answer held : Bool), w.now ≤ later.now →
      later.now ≤ latest →
      released.Stands read told held (later.now + heir.pace) →
      heir.Does post (next answer) released) :
    heir.Does post (.call ⟨l, .release vip iface⟩ next) w := by
  intro later passed answer after served
  have now := stands.passed passed
  obtain ⟨_, rfl⟩ := serve_some served
  have room : ∀ held, heir.Room read told held (later.now + heir.pace) :=
    fun held => .inr (.inr ((Nat.add_le_add_right now.now_le _).trans soon))
  cases answer with
  | true =>
      have released : (later.hold false).Stands read told false latest :=
        ⟨now.inTime, now.due, now.before, now.read, now.told, rfl⟩
      have acted := released.act heir.pace
      exact ⟨Fine.of_stands acted (room false),
        goes later _ true false passed.onward now.now_le acted⟩
  | false =>
      have acted := now.act heir.pace
      exact ⟨Fine.of_stands acted (room held),
        goes later _ false held passed.onward now.now_le acted⟩

/-- The router reads a datagram, or waits in vain. -/
theorem does_receive {l : Option Locals} {next : Recv → Prog α}
    (stands : w.Stands read told held latest)
    (room : heir.Room read told held (latest + heir.pace))
    (datagram : ∀ (heard : Watch) (data : List UInt8) (moment : Instant), told ≤ moment →
      heir.short data = true →
      heard.Stands moment (if heir.advises data then moment else told) held (moment + heir.pace) →
      heir.Does post (next (.datagram data)) heard)
    (timedOut : ∀ later : Watch, later.now ≤ latest →
      (later.act heir.pace).Stands read told held (later.now + heir.pace) →
      heir.Does post (next .timedOut) (later.act heir.pace)) :
    heir.Does post (.call ⟨l, .recvFrom⟩ next) w := by
  intro later passed answer after served
  have now := stands.passed passed
  obtain ⟨allowed, rfl⟩ := serve_some served
  cases answer with
  | datagram data =>
      have heard : (heir.effect later ⟨l, .recvFrom⟩ (.datagram data)).Stands later.now
          (if heir.advises data then later.now else told) held latest := by
        refine ⟨now.inTime, now.due, ?_, rfl, ?_, now.held⟩
        · change (if heir.advises data then later.now else told) ≤ later.now
          split
          · exact Nat.le_refl _
          · exact now.before
        · change (if heir.advises data then later.now else later.told) = _
          rw [now.told]
      have acted := heard.act heir.pace
      refine ⟨Fine.of_stands acted (.inr (.inr ?_)),
        datagram _ data later.now now.before allowed acted⟩
      exact Nat.add_le_add_left (by grind [slack]) _
  | timedOut =>
      have acted := now.act heir.pace
      exact ⟨Fine.of_stands acted (room.weaken (Nat.add_le_add_right now.now_le _)),
        timedOut later now.now_le acted⟩
  | failed => cases allowed

end

/-! ## The timers -/

theorem centis_le_patience {c : UInt32} (le : c.toNat ≤ 4 * heir.longest) :
    centis c ≤ heir.patience :=
  Nat.mul_le_mul_right _ (Nat.mul_le_mul_right _ le)

theorem skewCentis_le (vr : VirtualRouter) :
    vr.skewCentis.toNat ≤ vr.masterAdverIntervalCentis.toNat := by
  rw [vr.skewCentis_toNat]
  exact Nat.div_le_of_le_mul (Nat.mul_le_mul_right _ (Nat.sub_le 256 _))

theorem Fit.skewCentis {vr : VirtualRouter} (fit : heir.Fit vr) :
    vr.skewCentis.toNat ≤ 4 * heir.longest := by
  have skew := skewCentis_le vr
  have learned := fit.learned
  omega

theorem Fit.masterDown {vr : VirtualRouter} (fit : heir.Fit vr) :
    vr.masterDownIntervalCentis.toNat ≤ 4 * heir.longest := by
  have skew := skewCentis_le vr
  have learned := fit.learned
  rw [vr.masterDownIntervalCentis_eq]
  omega

/-- What the router learns of a short interval. -/
theorem Fit.learn {vr : VirtualRouter} (fit : heir.Fit vr) {interval : UInt16}
    (short : interval.toNat ≤ heir.longest) (state : State) :
    heir.Fit { vr with state, masterAdverIntervalCentis := max interval 1 } := by
  refine ⟨?_, fit.own⟩
  have positive := heir.positive
  rw [UInt16.toNat_max, UInt16.toNat_one]
  omega

/-- An advertisement starts no longer wait. -/
theorem Fit.advertisement {vr : VirtualRouter} (fit : heir.Fit vr) (peerPriority : UInt8)
    (peerAddr ourAddr : Ipv4Addr) {interval : UInt16} (short : interval.toNat ≤ heir.longest) :
    let result := vr.onAdvertisement peerPriority peerAddr ourAddr interval
    heir.Fit result.2 ∧ ∀ c, result.1 = .resetTimer c ∨ result.1 = .demoted c →
      centis c ≤ heir.patience := by
  intro result
  have learned := fit.learn short
  simp only [result, VirtualRouter.onAdvertisement]
  cases standing : vr.state with
  | init =>
      refine ⟨fit, ?_⟩
      rintro c (⟨⟨⟩⟩ | ⟨⟨⟩⟩)
  | backup =>
      have taught := learned .backup
      dsimp only
      split_ifs
      · refine ⟨fit, ?_⟩
        rintro c (⟨⟨⟩⟩ | ⟨⟨⟩⟩)
        exact centis_le_patience fit.skewCentis
      · refine ⟨taught, ?_⟩
        rintro c (⟨⟨⟩⟩ | ⟨⟨⟩⟩)
        exact centis_le_patience taught.masterDown
      · refine ⟨fit, ?_⟩
        rintro c (⟨⟨⟩⟩ | ⟨⟨⟩⟩)
  | master =>
      dsimp only
      split_ifs
      · refine ⟨fit, ?_⟩
        rintro c (⟨⟨⟩⟩ | ⟨⟨⟩⟩)
      · refine ⟨learned .backup, ?_⟩
        rintro c (⟨⟨⟩⟩ | ⟨⟨⟩⟩)
        exact centis_le_patience (learned .backup).masterDown
      · refine ⟨fit, ?_⟩
        rintro c (⟨⟨⟩⟩ | ⟨⟨⟩⟩)

/-! ## What the router does -/

variable {l : Locals} {within : Instant}

theorem Knows.later (knows : heir.Knows l told held) {later : Instant} (le : told ≤ later) :
    heir.Knows l later held := by
  refine ⟨knows.source, knows.fit, knows.state.imp_right ?_⟩
  rintro ⟨backup, deadline⟩
  exact ⟨backup, by grind⟩

/-- A router that goes by its timers acts in time. -/
theorem Knows.room (knows : heir.Knows l told held) (near : l.Near read held latest within)
    (soon : within + 7 * heir.pace ≤ heir.slack) : heir.Room read told held latest := by
  rcases near with holds | due | heard
  · exact .inl holds
  · rcases knows.state with ⟨_, holds⟩ | ⟨_, deadline⟩
    · exact .inl holds
    · exact .inr (.inl (by grind))
  · exact .inr (.inr (by grind))

omit heir in
theorem near_later (near : l.Near read held latest within) {later more : Instant}
    (le : later + within ≤ latest + more) : l.Near read held later more := by
  rcases near with holds | due | heard
  · exact .inl holds
  · exact .inr (.inl (by grind))
  · exact .inr (.inr (by grind))

theorem does_heads (knows : heir.Knows l told held) (stands : w.Stands read told held latest)
    (near : l.Near read held latest (3 * heir.pace)) :
    heir.Does heir.HeadPost (.done (.inl l)) w :=
  fun _ passed => ⟨read, told, held, latest, knows, stands.passed passed, near⟩

/-- The timer is set anew, soon after something was read. -/
theorem does_setTimer {c : UInt32} (source : l.ifaceIp = heir.ip) (fit : heir.Fit l.vr)
    (backup : l.vr.state = .backup) (wait : centis c ≤ heir.patience)
    (stands : w.Stands read read held latest) (soon : latest ≤ read + 2 * heir.pace) :
    heir.Does heir.HeadPost (.call ⟨some l, .now⟩ fun now =>
      .done (.inl { l with masterDownDeadline := now + centis c })) w := by
  refine does_quiet trivial stands (.inr (.inr (by grind [slack, span])))
    fun timed now _ early allowed stood => ?_
  obtain rfl : now = timed.now := of_decide_eq_true allowed
  refine does_heads ⟨source, fit, .inr ⟨backup, ?_⟩⟩ stood (.inr (.inr ?_))
  · change timed.now + centis c ≤ _
    grind
  · grind [span]

/-- What a datagram has the router do takes three operations at most. -/
theorem does_onDatagram {data : List UInt8} (knows : heir.Knows l told held)
    (before : told ≤ read) (short : heir.short data = true)
    (stands : w.Stands read (if heir.advises data then read else told) held (read + heir.pace)) :
    heir.Does heir.HeadPost (heir.params.onDatagram l data) w := by
  have near : ∀ (l : Locals) held, l.Near read held (read + heir.pace) (3 * heir.pace) :=
    fun _ _ => .inr (.inr (by grind))
  cases parsed : parseAdvertisement data heir.params.vrid with
  | none =>
      have silent : heir.advises data = false := by simp only [advises, parsed]
      rw [silent] at stands
      simp only [Params.onDatagram, parsed]
      exact does_heads knows stands (near l held)
  | some a =>
      have fits : a.intervalCentis.toNat ≤ heir.longest := by
        simpa only [Heir.short, parsed, decide_eq_true_eq] using short
      by_cases own : a.src = l.ifaceIp
      · have silent : heir.advises data = false := by
          simp only [advises, parsed, own, knows.source, ne_eq, not_true_eq_false, decide_false]
        rw [silent] at stands
        simp only [Params.onDatagram, parsed, if_pos own]
        exact does_heads knows stands (near l held)
      · have advised : heir.advises data = true := by
          rw [knows.source] at own
          simp only [advises, parsed, ne_eq, own, not_false_eq_true, decide_true]
        rw [advised, if_pos rfl] at stands
        have waits := knows.fit.advertisement a.priority a.src l.ifaceIp fits
        have outcomes := l.vr.onAdvertisement_cases a.priority a.src l.ifaceIp a.intervalCentis
        simp only [Params.onDatagram, parsed, if_neg own]
        generalize l.vr.onAdvertisement a.priority a.src l.ifaceIp a.intervalCentis = answer
          at waits outcomes
        obtain ⟨action, vr⟩ := answer
        obtain ⟨fit, waits⟩ := waits
        dsimp only at outcomes fit waits
        have later := knows.later before
        rcases outcomes with ⟨c, rfl, _, backup⟩ | ⟨rfl, rfl⟩ | ⟨c, rfl, _, backup⟩ |
          ⟨rfl, master, rfl⟩
        · refine does_release stands (by grind [slack]) fun demoted released _ _ _ soon stood => ?_
          exact does_setTimer knows.source fit backup (waits c (.inr rfl)) stood (by grind)
        · exact does_heads later stands (near l held)
        · exact does_setTimer knows.source fit backup (waits c (.inl rfl)) stands (by grind)
        · refine does_quiet trivial stands (.inr (.inr (by grind [slack, span])))
            fun timed now _ early allowed stood => ?_
          refine does_heads ⟨later.source, later.fit, later.state⟩ stood (.inr (.inr ?_))
          grind [span]

/-- Nothing came in time: a Backup whose timer ran out takes over. -/
theorem does_onTimedOut (knows : heir.Knows l told held) (stands : w.Stands read told held latest)
    (near : l.Near read held latest (10 * heir.pace + millis 10)) :
    heir.Does heir.HeadPost (heir.params.onTimedOut l) w := by
  have nearly : l.Near read held (latest + 2 * heir.pace) (12 * heir.pace + millis 10) :=
    near_later near (by grind)
  have room := knows.room nearly (by grind [slack])
  refine does_quiet trivial stands (room.weaken (by grind [span]))
    fun later now _ soon allowed stood => ?_
  obtain rfl : now = later.now := of_decide_eq_true allowed
  change heir.Does heir.HeadPost (if _ then _ else _) _
  split
  · rename_i due
    have holds : held = true := by
      rcases knows.state with ⟨_, holds⟩ | ⟨backup, _⟩
      · exact holds
      · exact absurd due.1 (ne_master_of_backup backup)
    refine does_quiet trivial stood (.inl holds) fun sent answer _ _ _ stood => ?_
    exact does_heads ⟨knows.source, knows.fit, .inl ⟨due.1, holds⟩⟩ stood (.inl holds)
  · split
    · rename_i due
      refine does_quiet trivial stood (room.weaken (by grind [span]))
        fun asked healthy _ _ allowed stood => ?_
      obtain rfl : healthy = true := allowed
      have takes : l.vr.onMasterDownTimeout true = (true, _) := if_pos ⟨due.1, rfl⟩
      rw [Program.done_bind, takes]
      refine does_claim stood fun claimed holding => ?_
      -- A Master goes by its own interval.
      exact does_heads ⟨knows.source, ⟨knows.fit.own, knows.fit.own⟩, .inl ⟨rfl, rfl⟩⟩ holding
        (.inl rfl)
    · -- Nothing is due yet.
      rename_i notTimer
      refine does_heads knows stood ?_
      rcases knows.state with ⟨_, holds⟩ | ⟨backup, _⟩
      · exact .inl holds
      · have early : later.now < l.masterDownDeadline :=
          Nat.not_le.mp fun due => notTimer ⟨backup, due⟩
        exact .inr (.inl (by grind [span]))

/-- A turn waits no longer than to its deadline, or for the shortest time. -/
theorem near_wait (knows : heir.Knows l told held) {now moment : Instant}
    (near : l.Near read held now within) (soon : moment ≤ now + heir.pace) :
    l.Near read held (moment + (Params.readTimeout l now + heir.pace))
      (within + 2 * heir.pace + millis 10) := by
  rcases knows.state with ⟨_, holds⟩ | ⟨backup, _⟩
  · exact .inl holds
  · have wait := Lan.readTimeout_le l now
    rw [Locals.deadline, if_neg (ne_master_of_backup backup)] at wait
    generalize millis 10 = shortest at wait ⊢
    rcases near with holds | due | heard
    · exact .inl holds
    · exact .inr (.inl (by grind))
    · by_cases due : now + shortest ≤ l.masterDownDeadline
      · exact .inr (.inl (by grind))
      · exact .inr (by grind)

theorem does_await (knows : heir.Knows l told held) (stands : w.Stands read told held latest)
    (near : l.Near read held latest (5 * heir.pace)) :
    heir.Does heir.HeadPost (heir.params.await l) w := by
  have nearly : l.Near read held (latest + 2 * heir.pace) (7 * heir.pace) :=
    near_later near (by grind)
  have room := knows.room nearly (by grind [slack])
  refine does_quiet trivial stands (room.weaken (by grind [span])) fun shown _ _ soon _ stood => ?_
  refine does_quiet trivial stood (room.weaken (by grind [span]))
    fun begun now _ early allowed stood => ?_
  obtain rfl : now = begun.now := of_decide_eq_true allowed
  have nearNow : l.Near read held begun.now (6 * heir.pace) := near_later near (by grind [span])
  have waiting := knows.room (near_wait knows nearNow (Nat.le_refl _)) (by grind [slack])
  refine does_quiet trivial stood waiting fun begins isSet _ early allowed stood => ?_
  obtain rfl : isSet = true := allowed
  have waits := near_wait knows nearNow early
  have inTime : l.Near read held
      (begins.now + (Params.readTimeout l begun.now + heir.pace) + heir.pace)
      (10 * heir.pace + millis 10) := near_later waits (by grind)
  refine does_receive stood (knows.room inTime (by grind [slack]))
    (fun heard data moment before short stood => ?_) fun last late stood => ?_
  · exact does_onDatagram knows before short stood
  · exact does_onTimedOut knows stood
      (near_later inTime (Nat.add_le_add_right (Nat.add_le_add_right late _) _))

/-- As the loop never ends, its handle is never marked stopped. -/
theorem does_round {program : Prog (Locals ⊕ Exit)} (does : heir.Does heir.HeadPost program w) :
    heir.Does heir.HeadPost (program.bind Params.leave) w := by
  refine does.bind Passes.refl ?_
  rintro (l | exit) world heads
  · obtain ⟨read, told, held, latest, knows, stands, near⟩ := heads
    exact does_heads knows stands near
  · exact heads.elim

/-- A turn of the router. -/
theorem does_turn (heads : heir.Heads l w) :
    heir.Does heir.HeadPost (heir.params.turnRun l) w := by
  obtain ⟨read, told, held, latest, knows, stands, near⟩ := heads
  have nearly : l.Near read held (latest + 2 * heir.pace) (5 * heir.pace) :=
    near_later near (by grind)
  have room := knows.room nearly (by grind [slack])
  have turned : heir.Does heir.HeadPost (heir.params.turnLoop l) w := by
    refine does_quiet trivial stands (room.weaken (by grind [span]))
      fun begun stop _ soon allowed stood => ?_
    obtain rfl : stop = false := Bool.not_eq_eq_eq_not.mp allowed
    refine does_quiet trivial stood (room.weaken (by grind [span]))
      fun asked healthy _ early allowed stood => ?_
    obtain rfl : healthy = true := allowed
    simp only [Program.done_bind, l.vr.onHealth_true]
    change heir.Does heir.HeadPost (heir.params.await l) _
    exact does_await knows stood (near_later near (by grind [span]))
  exact does_round turned

/-- The start of the router. -/
theorem does_start : heir.Does heir.HeadPost heir.params.startRun (.start heir.pace) := by
  have room : ∀ {latest}, latest ≤ 8 * heir.pace → heir.Room 0 0 false latest :=
    fun le => .inr (.inr (by grind [slack]))
  have stands : (Watch.start heir.pace).Stands 0 0 false heir.pace :=
    ⟨Nat.zero_le _, Nat.le_refl _, Nat.le_refl _, rfl, rfl, rfl⟩
  have started : heir.Does heir.HeadPost heir.params.startLoop (.start heir.pace) := by
    refine does_quiet trivial stands (room (by grind [span])) fun found ip _ _ allowed stood => ?_
    obtain rfl : ip = some heir.ip := of_decide_eq_true allowed
    refine does_quiet trivial stood (room (by grind [span])) fun bound opened _ _ allowed stood => ?_
    obtain rfl : opened = true := allowed
    refine does_quiet trivial stood (room (by grind [span])) fun asked healthy _ _ allowed stood => ?_
    obtain rfl : healthy = true := allowed
    refine does_quiet trivial stood (room (by grind [span])) fun shown _ _ _ _ stood => ?_
    refine does_quiet trivial stood (room (by grind [span])) fun begun nextAdvert _ _ _ stood => ?_
    refine does_quiet trivial stood (room (by grind [span])) fun timed now _ _ allowed stood => ?_
    obtain rfl : now = timed.now := of_decide_eq_true allowed
    simp only [Program.done_bind]
    have fit : heir.Fit (heir.params.router.start true) := ⟨heir.own, heir.own⟩
    rcases heir.params.router.start_state true with ⟨master, _⟩ | backup
    · rw [if_pos master]
      refine does_claim stood fun claimed holding => ?_
      exact does_heads ⟨rfl, fit, .inl ⟨master, rfl⟩⟩ holding (.inl rfl)
    · rw [if_neg (ne_master_of_backup backup)]
      have wait := centis_le_patience fit.masterDown
      refine does_heads ⟨rfl, fit, .inr ⟨backup, ?_⟩⟩ stood (.inr (.inl ?_))
      · change timed.now + centis _ ≤ _
        grind [span]
      · change _ ≤ timed.now + centis _ + _
        grind [span]
  exact does_round started

/-! ## The bound -/

variable {allowed : Option Unit → Config Unit Call Call.Ans Locals Exit Watch → Prop}
  {config : Config Unit Call Call.Ans Locals Exit Watch}

theorem passes_of_drifts (drifts : heir.loop.drifts w after) : Passes w after := by
  obtain ⟨later, onward, inTime, rfl⟩ := drifts
  exact ⟨onward, fun _ => inTime, rfl⟩

theorem Fine.passes (fine : heir.Fine w) (passes : Passes w after) : heir.Fine after := by
  have due : after.due = w.due := by rw [passes.same]
  refine ⟨?_, ?_⟩
  · rw [due]
    exact passes.inTime fine.inTime
  · rw [passes.same]
    exact fine.soon

theorem does_of_reaches
    (reached : Threads.Reaches heir.loop allowed (heir.loop.initial (.start heir.pace)) config)
    (i : Unit) : heir.Does heir.HeadPost (config.threads i) config.world := by
  have turns : ∀ (i : Unit) (l : Locals) (w : Watch), heir.Heads l w →
      heir.Does heir.HeadPost (heir.loop.body i l) w := fun _ _ _ => does_turn
  have done := reached.honours (fun _ a b c => @Passes.trans a b c) (fun _ => Passes.refl)
    (fun _ _ _ => passes_of_drifts) (fun _ _ _ _ apart _ => absurd rfl apart)
    (fun _ => does_start) turns i
  exact done

theorem fine_of_reaches
    (reached : Threads.Reaches heir.loop allowed (heir.loop.initial (.start heir.pace)) config) :
    heir.Fine config.world := by
  refine reached.guaranteed (fun _ => Passes.refl) (fun _ before i => does_of_reaches before i)
    (fun _ _ drifts fine => fine.passes (passes_of_drifts drifts))
    (fun _ _ _ kept _ => kept) ⟨Nat.zero_le _, .inr (.inr ?_)⟩
  change heir.pace ≤ 0 + heir.slack
  grind [slack]

/--
At every moment a router that works throughout has the VIP, read a datagram just
before, or was told by another within the longest Master_Down_Interval.
-/
theorem takesOver_of_reaches
    (reached : Threads.Reaches heir.loop allowed (heir.loop.initial (.start heir.pace)) config) :
    config.world.holds = true ∨ config.world.now ≤ config.world.told + heir.patience + heir.slack ∨
      config.world.now ≤ config.world.read + heir.slack := by
  have fine := fine_of_reaches reached
  exact fine.soon.imp_right (Or.imp fine.inTime.trans fine.inTime.trans)

end Heir

/-! ## A Backup alone -/

theorem one_le_hundred : 1 ≤ 100 := by
  decide

theorem backup_interval :
    ({ owner with priority := 100 } : Params).router.advertIntervalCentis.toNat ≤ 100 := by
  decide

def backupAlone : Heir where
  params := { owner with priority := 100 }
  ip := ⟨192, 168, 8, 11⟩
  pace := millis 1
  longest := 100
  own := backup_interval
  positive := one_le_hundred

abbrev AloneConfig := Config Unit Call Call.Ans Locals Exit Watch

/-- Nothing fails, and nothing is received. -/
def answersAlone (_ : Unit) (w : Watch) (call : Call) : call.Ans :=
  match call with
  | ⟨_, .interfaceIpv4 _⟩ => some backupAlone.ip
  | ⟨_, .now⟩ => w.now
  | call => answers .timedOut [] call

def playAlone (config : AloneConfig) (moves : Nat) : AloneConfig :=
  backupAlone.loop.playSchedule Threads.anySchedule answersAlone config (List.replicate moves ())

/-- Five operations, then as much time as may pass, and more moves. -/
def waitAlone (config : AloneConfig) (moves : Nat) : AloneConfig :=
  let begun := playAlone config 5
  playAlone { begun with world := { begun.world with now := begun.world.due } } moves

/-- The Backup waits in vain, claims the VIP, advertises, and waits again. -/
def tookOver : AloneConfig :=
  [3, 3, 3, 3, 3, 3, 3, 5, 4, 0].foldl waitAlone
    (playAlone (backupAlone.loop.initial (.start backupAlone.pace)) 7)

def ReachesAlone : AloneConfig → Prop :=
  Threads.Reaches backupAlone.loop Threads.anySchedule
    (backupAlone.loop.initial (.start backupAlone.pace))

theorem reaches_playAlone {config : AloneConfig} (reached : ReachesAlone config) (moves : Nat) :
    ReachesAlone (playAlone config moves) :=
  Threads.Reaches.playSchedule _ _ reached

theorem reaches_waitAlone {config : AloneConfig} (reached : ReachesAlone config) (moves : Nat) :
    ReachesAlone (waitAlone config moves) := by
  have begun := reaches_playAlone reached 5
  have fine := Heir.fine_of_reaches begun
  exact reaches_playAlone
    (begun.step trivial (.drift ⟨_, fine.inTime, Nat.le_refl _, rfl⟩)) moves

theorem reaches_tookOver : ReachesAlone tookOver := by
  have waited : ∀ (rounds : List Nat) (config : AloneConfig), ReachesAlone config →
      ReachesAlone (rounds.foldl waitAlone config) := by
    intro rounds
    induction rounds with
    | nil => exact fun _ reached => reached
    | cons moves rest ih => exact fun _ reached => ih _ (reaches_waitAlone reached moves)
  exact waited _ _ (reaches_playAlone .start 7)

theorem takesOver_tookOver :
    tookOver.world.told + backupAlone.patience + backupAlone.slack < tookOver.world.now ∧
      tookOver.world.read + backupAlone.slack < tookOver.world.now ∧
      (tookOver.world.holds = true ∨
        tookOver.world.now ≤ tookOver.world.told + backupAlone.patience + backupAlone.slack ∨
        tookOver.world.now ≤ tookOver.world.read + backupAlone.slack) :=
  ⟨by decide +kernel, by decide +kernel, Heir.takesOver_of_reaches reaches_tookOver⟩

end StormLb.Vrrp
