import StormLb.Bgp.Grammar

/-!
# What a session writes

The law of single operations, proved of the program: it only writes what the
grammar admits, nothing after it read a NOTIFICATION, and it only waits when the
route is in step with what it last read from the watch.  Over every schedule of
the session and its watch this gives the grammar of the output, and an UPDATE
that agrees with the watched value whenever the loop waits for nothing unseen.
-/

namespace StormLb.Bgp

open StormLb.Effects

/-! ## The output, and what was read -/

def Op.written : Op → Option Message
  | .write m => some m
  | _ => none

/-- The messages written, oldest first. -/
def output (log : Log) : List Message :=
  log.trace fun event => event.1.written

@[simp] theorem output_nil : output [] = [] :=
  rfl

@[simp] theorem output_cons (event : Event Op Op.Ans) (past : Log) :
    output (event :: past) = output past ++ event.1.written.toList :=
  rfl

/-- The message of the peer that was read, with its type. -/
def heard : Event Op Op.Ans → Option (UInt8 × List UInt8)
  | ⟨.nextWithin _, some (.message t body)⟩ => some (t, body)
  | ⟨.select _, .next (.message t body)⟩ => some (t, body)
  | _ => none

/-- A NOTIFICATION of the peer was read. -/
def Notified (log : Log) : Prop :=
  ∃ event ∈ log, ∃ body, heard event = some (typeNotification, body)

/-- The peer's OPEN was read and accepted. -/
def Speaker.Accepted (s : Speaker) (log : Log) : Prop :=
  ∃ event past body hold, event :: past <:+ log ∧ heard event = some (typeOpen, body) ∧
    checkOpen body s.peer.asn = .ok hold

/-- After its accepted OPEN, the peer's KEEPALIVE was read. -/
def Speaker.Agreed (s : Speaker) (log : Log) : Prop :=
  ∃ event past body, event :: past <:+ log ∧ heard event = some (typeKeepalive, body) ∧
    s.Accepted past

theorem Speaker.Accepted.later {s : Speaker} {log : Log} (accepted : s.Accepted log)
    (event : Event Op Op.Ans) : s.Accepted (event :: log) := by
  obtain ⟨first, past, body, hold, suffix, read, checked⟩ := accepted
  exact ⟨first, past, body, hold, suffix.trans (List.suffix_cons _ _), read, checked⟩

theorem Speaker.Agreed.later {s : Speaker} {log : Log} (agreed : s.Agreed log)
    (event : Event Op Op.Ans) : s.Agreed (event :: log) := by
  obtain ⟨first, past, body, suffix, read, accepted⟩ := agreed
  exact ⟨first, past, body, suffix.trans (List.suffix_cons _ _), read, accepted⟩

/-- What the session knows of the watch. -/
inductive Sight where
  | unmarked
  | marked
  | toRead
  | read (value : Bool)
  deriving DecidableEq, Repr

def sight : Log → Sight
  | [] => .unmarked
  | ⟨.markChanged, _⟩ :: _ => .marked
  | ⟨.select _, .changed⟩ :: _ => .toRead
  | ⟨.borrowAndUpdate, value⟩ :: _ => .read value
  | _ :: past => sight past

/-- What is known of the watch, when it is true. -/
def Watch.Matches (watch : Watch) : Sight → Prop
  | .marked => watch.unseen = true
  | .read value => watch.unseen = false → watch.value = value
  | _ => True

/-- A value sent is unseen, so what is known stays true. -/
theorem Watch.Matches.sent {watch : Watch} {seen : Sight} (knows : watch.Matches seen)
    (value : Bool) : Watch.Matches { value, unseen := true } seen := by
  cases seen with
  | marked => rfl
  | read value => exact fun seen => nomatch seen
  | _ => exact knows

/-- What is known after an operation is true of the watch it leaves behind. -/
theorem Watch.Matches.served {watch after : Watch} {log : Log} {op : Op} {answer : op.Ans}
    (knows : watch.Matches (sight log)) (served : watch.serve op answer = some after) :
    after.Matches (sight (⟨op, answer⟩ :: log)) := by
  cases op with
  | markChanged =>
      cases served
      rfl
  | borrowAndUpdate =>
      rw [Watch.serve] at served
      split at served
      · rename_i same
        cases served
        exact fun _ => same.symm
      · cases served
  | select deadline =>
      cases answer with
      | changed => exact trivial
      | _ =>
          cases served
          exact knows
  | _ =>
      cases served
      exact knows

/-! ## The law of single operations -/

/-- Whether it is the end of the session. -/
def Message.isNotification : Message → Bool
  | .notification .. => true
  | _ => false

namespace Speaker

variable {s : Speaker}

/--
Nothing is done after a NOTIFICATION written and nothing written after one read;
what the mix holds waits for the peer's agreement; and the loop waits in step
with the watch.
-/
def Lawful (s : Speaker) (op : Op) (log : Log) : Prop :=
  s.speaks (output log) ≠ some .ended ∧
    match op with
    | .write m =>
        (∃ after, s.speaks (output log ++ [m]) = some after) ∧ ¬ Notified log ∧
          ∀ announced, s.speaks (output log) = some (.confirmed announced) →
            m.isNotification = true ∨ s.Agreed log
    | .select _ =>
        ∃ announced, s.speaks (output log) = some (.confirmed announced) ∧
          (sight log = .marked ∨ sight log = .read announced)
    | _ => True

/-- The phase of the output, and no NOTIFICATION of the peer. -/
structure At (s : Speaker) (phase : Phase) (log : Log) : Prop where
  spoken : s.speaks (output log) = some phase
  unnotified : ¬ Notified log

/-- The loop's state is in step with the output and the watch. -/
structure Stands (s : Speaker) (e : Established) (log : Log) : Prop where
  at_phase : s.At (.confirmed e.announced) log
  agreed : s.Agreed log
  seen : sight log = .marked ∨ sight log = .read e.announced

/-- The postcondition of the loop: in step again, or ended. -/
abbrev Post (s : Speaker) : Established ⊕ Exit → Log → Prop :=
  LoopPost s.Stands fun _ _ => True

/-- An operation that writes nothing and reads no message. -/
theorem At.pass {phase : Phase} {log : Log} (before : s.At phase log) {event : Event Op Op.Ans}
    (silent : event.1.written = none) (unheard : heard event = none) :
    s.At phase (event :: log) where
  spoken := by simpa [silent] using before.spoken
  unnotified := by
    rintro ⟨read, member, body, notification⟩
    rcases List.mem_cons.mp member with rfl | earlier
    · rw [unheard] at notification
      cases notification
    · exact before.unnotified ⟨read, earlier, body, notification⟩

/-- A message of the peer other than a NOTIFICATION. -/
theorem At.hear {phase : Phase} {log : Log} (before : s.At phase log) {event : Event Op Op.Ans}
    {t : UInt8} {body : List UInt8} (silent : event.1.written = none)
    (read : heard event = some (t, body)) (other : t ≠ typeNotification) :
    s.At phase (event :: log) where
  spoken := by simpa [silent] using before.spoken
  unnotified := by
    rintro ⟨earlier, member, body, notification⟩
    rcases List.mem_cons.mp member with rfl | member
    · rw [read] at notification
      cases notification
      exact other rfl
    · exact before.unnotified ⟨earlier, member, body, notification⟩

/-- A message the grammar admits. -/
theorem At.write {phase after : Phase} {log : Log} {m : Message} (before : s.At phase log)
    (follows : s.follows phase m = some after) (failed : Option String) :
    s.At after (⟨.write m, failed⟩ :: log) where
  spoken := by simp [Op.written, before.spoken, follows]
  unnotified := by
    rintro ⟨read, member, body, notification⟩
    rcases List.mem_cons.mp member with rfl | earlier
    · cases notification
    · exact before.unnotified ⟨read, earlier, body, notification⟩

/-- Whatever is done in a phase before the last obeys the first half of the law. -/
theorem At.lawful {phase : Phase} {log : Log} (before : s.At phase log)
    (going : phase ≠ .ended) : s.speaks (output log) ≠ some .ended := by
  rw [before.spoken]
  exact fun same => going (Option.some.inj same)

/-- A message the grammar admits is lawful. -/
theorem At.lawful_write {phase after : Phase} {log : Log} {m : Message} (before : s.At phase log)
    (follows : s.follows phase m = some after)
    (agreed : ∀ announced, phase = .confirmed announced → m.isNotification = true ∨ s.Agreed log) :
    s.Lawful (.write m) log := by
  refine ⟨before.lawful ?_, ⟨after, ?_⟩, before.unnotified, fun announced confirmed => ?_⟩
  · rintro rfl
    cases m <;> cases follows
  · simp [before.spoken, follows]
  · rw [before.spoken] at confirmed
    exact agreed announced (Option.some.inj confirmed)

/-! ## The program keeps the law -/

theorem keeps_writeOr {phase after : Phase} {log : Log} {m : Message} (before : s.At phase log)
    (follows : s.follows phase m = some after)
    (agreed : ∀ announced, phase = .confirmed announced → m.isNotification = true ∨ s.Agreed log)
    {rest : Prog (Established ⊕ Exit)}
    (continued : s.At after (⟨.write m, none⟩ :: log) →
      Program.Keeps s.Lawful s.Post rest (⟨.write m, none⟩ :: log)) :
    Program.Keeps s.Lawful s.Post (writeOr m rest) log := by
  refine ⟨before.lawful_write follows agreed, fun failed => ?_⟩
  cases failed with
  | none => exact continued (before.write follows none)
  | some error => exact trivial

theorem keeps_notify {phase : Phase} {log : Log} (code sub : UInt8) (why : String)
    (before : s.At phase log) (allowed : phase = .opened ∨ ∃ a, phase = .confirmed a) :
    Program.Keeps s.Lawful s.Post (notify code sub why) log := by
  have follows : s.follows phase (.notification code sub) = some .ended := by
    rcases allowed with rfl | ⟨announced, rfl⟩
    · rfl
    · exact s.follows_notification announced code sub
  exact ⟨before.lawful_write follows fun _ _ => .inl rfl, fun _ => trivial⟩

/-- OpenConfirm, after the peer's OPEN was accepted. -/
theorem keeps_openConfirm (hold : UInt16) {log : Log} (before : s.At (.confirmed false) log)
    (accepted : s.Accepted log) :
    Program.Keeps s.Lawful s.Post (openConfirm hold) log := by
  have going : Phase.confirmed false ≠ .ended := by simp
  refine ⟨⟨before.lawful going, trivial⟩, fun answer => ?_⟩
  generalize (if hold = 0 then openWait else secs hold.toNat) = wait at answer ⊢
  match answer with
  | none => exact keeps_notify _ _ _ (before.pass rfl rfl) (.inr ⟨_, rfl⟩)
  | some (.failed error) => exact trivial
  | some (.message t body) =>
      simp only [Program.done_bind]
      split
      · rename_i isKeepalive
        subst isKeepalive
        have heardIt : s.At (.confirmed false)
            (⟨.nextWithin wait, some (.message typeKeepalive body)⟩ :: log) :=
          before.hear rfl rfl (by decide)
        have agreed : s.Agreed (⟨.nextWithin wait, some (.message typeKeepalive body)⟩ :: log) :=
          ⟨_, log, body, List.suffix_refl _, rfl, accepted⟩
        refine ⟨⟨heardIt.lawful going, trivial⟩, fun _ => ?_⟩
        refine ⟨⟨(heardIt.pass rfl rfl).lawful going, trivial⟩, fun _ => ?_⟩
        refine ⟨⟨((heardIt.pass rfl rfl).pass rfl rfl).lawful going, trivial⟩, fun _ => ?_⟩
        exact ⟨((heardIt.pass rfl rfl).pass rfl rfl).pass rfl rfl,
          ((agreed.later _).later _).later _, .inl rfl⟩
      · split
        · exact trivial
        · rename_i other
          exact keeps_notify _ _ _ (before.hear rfl rfl other) (.inr ⟨_, rfl⟩)

/-- OpenSent. -/
theorem keeps_openSent {log : Log} (before : s.At .opened log) :
    Program.Keeps s.Lawful s.Post s.openSent log := by
  refine ⟨⟨before.lawful (by simp), trivial⟩, fun answer => ?_⟩
  match answer with
  | none => exact keeps_notify _ _ _ (before.pass rfl rfl) (.inl rfl)
  | some (.failed error) => exact trivial
  | some (.message t body) =>
      simp only [Program.done_bind]
      split
      · rename_i isOpen
        subst isOpen
        have heardIt : s.At .opened (⟨.nextWithin openWait, some (.message typeOpen body)⟩ :: log) :=
          before.hear rfl rfl (by decide)
        split
        · exact keeps_notify _ _ _ heardIt (.inl rfl)
        · rename_i hold checked
          have accepted : s.Accepted (⟨.nextWithin openWait, some (.message typeOpen body)⟩ :: log) :=
            ⟨_, log, body, hold, List.suffix_refl _, rfl, checked⟩
          exact keeps_writeOr heardIt rfl (by simp) fun written =>
            keeps_openConfirm _ written (accepted.later _)
      · split
        · exact trivial
        · rename_i other
          exact keeps_notify _ _ _ (before.hear rfl rfl other) (.inl rfl)

/-- The session up to the loop. -/
theorem keeps_start (s : Speaker) : Program.Keeps s.Lawful s.Post s.start [] := by
  have silent : s.At .silent [] := ⟨rfl, by simp [Notified]⟩
  refine ⟨⟨silent.lawful (by simp), trivial⟩, fun answer => ?_⟩
  match answer with
  | .timedOut => exact trivial
  | .failed error => exact trivial
  | .connected =>
      exact keeps_writeOr (silent.pass rfl rfl) s.follows_opening (by simp) keeps_openSent

/-- The health state changed: the UPDATE whose turn it is, if it is due. -/
theorem keeps_onChanged {e : Established} {log : Log} (before : s.At (.confirmed e.announced) log)
    (agreed : s.Agreed log) : Program.Keeps s.Lawful s.Post (s.onChanged e) log := by
  refine ⟨⟨before.lawful (by simp), trivial⟩, fun want => ?_⟩
  have after : s.At (.confirmed e.announced) (⟨.borrowAndUpdate, want⟩ :: log) :=
    before.pass rfl rfl
  simp only [Program.done_bind]
  split
  · rename_i due
    obtain ⟨rfl, unannounced⟩ := due
    rw [unannounced] at after
    refine keeps_writeOr after s.follows_announcement (fun _ _ => .inr (agreed.later _))
      fun written => ?_
    exact ⟨written, (agreed.later _).later _, .inr rfl⟩
  · split
    · rename_i due
      obtain ⟨rfl, announced⟩ := due
      rw [announced] at after
      refine keeps_writeOr after s.follows_withdrawal (fun _ _ => .inr (agreed.later _))
        fun written => ?_
      exact ⟨written, (agreed.later _).later _, .inr rfl⟩
    · rename_i notUp notDown
      refine ⟨after, agreed.later _, .inr ?_⟩
      have same : want = e.announced := by
        cases want <;> cases announced : e.announced <;> simp_all
      exact congrArg Sight.read same

/-- A message of the peer in the loop, by its type. -/
theorem keeps_onType {e : Established} {log : Log} {t : UInt8} (body : List UInt8)
    (stands : t ≠ typeNotification → s.Stands e log) :
    Program.Keeps s.Lawful s.Post (onType e t body) log := by
  unfold onType
  split
  · rename_i quiet
    refine stands ?_
    rcases quiet with rfl | rfl <;> decide
  · split
    · exact trivial
    · rename_i other
      split
      · exact keeps_notify _ _ _ (stands other).at_phase (.inr ⟨_, rfl⟩)
      · exact keeps_notify _ _ _ (stands other).at_phase (.inr ⟨_, rfl⟩)

/-- One turn of the loop. -/
theorem keeps_turn {e : Established} {log : Log} (stands : s.Stands e log) :
    Program.Keeps s.Lawful s.Post (s.turn e) log := by
  obtain ⟨before, agreed, seen⟩ := stands
  refine ⟨⟨before.lawful (by simp), e.announced, before.spoken, seen⟩, fun ready => ?_⟩
  match ready with
  | .ticked =>
      refine keeps_writeOr (before.pass rfl rfl) (s.follows_keepalive _)
        (fun _ _ => .inr (agreed.later _)) fun written => ?_
      exact ⟨written, (agreed.later _).later _, seen⟩
  | .holdExpired => exact keeps_notify _ _ _ (before.pass rfl rfl) (.inr ⟨_, rfl⟩)
  | .senderGone => exact trivial
  | .changed => exact keeps_onChanged (before.pass rfl rfl) (agreed.later _)
  | .next (.failed error) => exact trivial
  | .next (.message t body) =>
      have stands : t ≠ typeNotification → s.Stands e
          (⟨.select e.holdDeadline, .next (.message t body)⟩ :: log) :=
        fun other => ⟨before.hear rfl rfl other, agreed.later _, seen⟩
      simp only [Program.done_bind, onMessage]
      split
      · exact keeps_onType body stands
      · refine ⟨⟨?_, trivial⟩, fun now => ?_⟩
        · simp [Op.written, before.spoken]
        · refine keeps_onType body fun other => ?_
          obtain ⟨here, agreed, seen⟩ := stands other
          exact ⟨here.pass rfl rfl, agreed.later _, seen⟩

/-! ## Every schedule of the session and its watch -/

variable {world : Watch} {config : Config Unit Op Op.Ans Established Exit Watch}

theorem keeps_of_reaches
    (reached : s.threads.Reaches Threads.anySchedule (s.threads.initial world) config) :
    Program.Keeps s.Lawful s.Post (config.threads ()) (config.histories ()) :=
  (reached.solo ()).keeps s.keeps_start fun _ _ => keeps_turn

theorem always_of_reaches
    (reached : s.threads.Reaches Threads.anySchedule (s.threads.initial world) config) :
    History.Always s.Lawful (config.histories ()) :=
  (reached.solo ()).always s.keeps_start fun _ _ => keeps_turn

/-- What was written obeyed the grammar all along. -/
theorem speaks_of_always {log : Log} (always : History.Always s.Lawful log) :
    ∃ phase, s.speaks (output log) = some phase := by
  induction log with
  | nil => exact ⟨.silent, rfl⟩
  | cons event past ih =>
      obtain ⟨now, before⟩ := (History.always_cons _ _ _).mp always
      obtain ⟨op, answer⟩ := event
      cases op with
      | write m => exact now.2.1
      | _ => simpa [Op.written] using ih before

/-- A program that wrote a NOTIFICATION has ended. -/
theorem exit_of_ended {program : Prog (Established ⊕ Exit)} {log : Log}
    (keeps : Program.Keeps s.Lawful s.Post program log)
    (ended : s.speaks (output log) = some .ended) : ∃ why, program = .done (.inr why) := by
  cases program with
  | call op next => exact absurd ended keeps.1.1
  | done value =>
      cases value with
      | inr why => exact ⟨why, rfl⟩
      | inl e =>
          have stands : s.Stands e log := keeps
          have confirmed := stands.at_phase.spoken
          rw [ended] at confirmed
          cases confirmed

/-- Two messages and a third lawful one: the session is confirmed. -/
theorem confirmed_of_length {messages : List Message} {m : Message} {after : Phase}
    (spoken : s.speaks (messages ++ [m]) = some after) (long : 2 ≤ messages.length) :
    ∃ announced, s.speaks messages = some (.confirmed announced) := by
  rw [speaks_concat, Option.bind_eq_some_iff] at spoken
  obtain ⟨before, spoken, follows⟩ := spoken
  have shape := shape_of_speaks spoken
  cases before with
  | silent =>
      cases shape
      simp at long
  | opened =>
      cases shape
      simp at long
  | confirmed announced => exact ⟨announced, spoken⟩
  | ended => cases m <;> cases follows

/-- What the session knows of the watch is true of it. -/
def KnowsWatch (config : Config Unit Op Op.Ans Established Exit Watch) : Prop :=
  config.world.Matches (sight (config.histories ()))

theorem knowsWatch_of_reaches
    (reached : s.threads.Reaches Threads.anySchedule (s.threads.initial world) config) :
    KnowsWatch config := by
  refine reached.invariant ?_ ?_
  · exact trivial
  · intro who config after reached knows _ stepped
    cases stepped with
    | turn looped => exact knows
    | drift moved =>
        obtain ⟨value, rfl⟩ := moved
        exact knows.sent value
    | call answer waiting served => exact knows.served served

/-- The invariant of every moment of a session. -/
structure SessionOutput (s : Speaker)
    (config : Config Unit Op Op.Ans Established Exit Watch) : Prop where
  grammar : ∃ whole, s.IsSession whole ∧ output (config.histories ()) <+: whole
  ends : ∀ code sub, .notification code sub ∈ output (config.histories ()) →
    ∃ why, config.threads () = .done (.inr why)
  agreed : ∀ m failed past, ⟨.write m, failed⟩ :: past <:+ config.histories () →
    2 ≤ (output past).length → m.isNotification = true ∨ s.Agreed past
  unanswered : ∀ m failed past, ⟨.write m, failed⟩ :: past <:+ config.histories () →
    ¬ Notified past
  inStep : ∀ deadline next, config.threads () = .call (.select deadline) next →
    config.world.unseen = false →
      ((updates (output (config.histories ()))).getLast? = some s.announcement ↔
        config.world.value = true)

/-- A session keeps it under every schedule, whatever the peer, the timers and the sender do. -/
theorem session_output (s : Speaker) {world : Watch}
    {config : Config Unit Op Op.Ans Established Exit Watch}
    (reached : s.threads.Reaches Threads.anySchedule (s.threads.initial world) config) :
    s.SessionOutput config := by
  have keeps := keeps_of_reaches reached
  have always := always_of_reaches reached
  obtain ⟨phase, spoken⟩ := speaks_of_always always
  have shape := shape_of_speaks spoken
  constructor
  · exact shape.prefix_session
  · intro code sub member
    obtain rfl := shape.notification_mem member
    exact exit_of_ended keeps spoken
  · intro m failed past suffix long
    obtain ⟨_, ⟨after, follows⟩, _, waits⟩ := always _ past suffix
    obtain ⟨announced, confirmed⟩ := confirmed_of_length follows long
    exact waits announced confirmed
  · intro m failed past suffix
    exact (always _ past suffix).2.2.1
  · intro deadline next waiting nothingUnseen
    have knows : KnowsWatch config := knowsWatch_of_reaches reached
    rw [waiting] at keeps
    obtain ⟨_, announced, confirmed, marked | read⟩ := keeps.1
    · rw [KnowsWatch, marked] at knows
      exact absurd (knows.symm.trans nothingUnseen) (by simp)
    · rw [KnowsWatch, read] at knows
      rw [(shape_of_speaks confirmed).last_update, knows nothingUnseen]

end Speaker

/-- AS64512 advertises 192.168.8.50 to its router. -/
def advertiser : Speaker where
  peer := { ip := ⟨192, 168, 8, 1⟩, port := 179, asn := 64513 }
  localAsn := 64512
  bgpId := ⟨192, 168, 8, 51⟩
  nextHop := ⟨192, 168, 8, 51⟩
  vip := ⟨192, 168, 8, 50⟩

/-- A router that offers a hold time of 90 s, and no delay anywhere. -/
def router (_ : Unit) (watch : Watch) (op : Op) : op.Ans :=
  match op with
  | .connect .. => .connected
  | .write _ => none
  | .nextWithin wait =>
      if wait = openWait then
        some (.message typeOpen ((openMsg 64513 90 ⟨192, 168, 8, 1⟩).drop 19))
      else some (.message typeKeepalive [])
  | .firstTick _ => ()
  | .now => (0 : Nat)
  | .markChanged => ()
  | .select _ => if watch.unseen then .changed else .ticked
  | .borrowAndUpdate => watch.value

/-- Thirteen moves of a session that starts healthy. -/
def healthySession : Config Unit Op Op.Ans Established Exit Watch :=
  advertiser.threads.playSchedule Threads.anySchedule router
    (advertiser.threads.initial { value := true, unseen := false }) (List.replicate 13 ())

-- It waits with nothing unseen, its route announced.
theorem session_output_healthy :
    (∃ next, healthySession.threads () = .call (.select (secs 90)) next) ∧
      healthySession.world = { value := true, unseen := false } ∧
      output (healthySession.histories ()) =
        [advertiser.opening, .keepalive, advertiser.announcement] ∧
      advertiser.SessionOutput healthySession := by
  have reached : advertiser.threads.Reaches Threads.anySchedule
      (advertiser.threads.initial { value := true, unseen := false }) healthySession :=
    Threads.Reaches.playSchedule router _ .start
  exact ⟨⟨_, rfl⟩, rfl, rfl, advertiser.session_output reached⟩

end StormLb.Bgp
