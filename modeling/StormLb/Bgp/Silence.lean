import StormLb.Bgp.Output

/-!
# The hold timer and the peer's messages

The deadline of the hold timer is moved when a message is taken from the channel,
not when it enters.  So the peer of an expired session was silent when nothing
was waiting in the channel; when a write took long, something may be.
-/

namespace StormLb.Bgp

open StormLb.Net StormLb.Effects

/-! ## What the deadline stands for -/

/-- The hold time agreed on when the event is the peer's OPEN. -/
def Speaker.agrees (s : Speaker) : Event Op Op.Ans → Option UInt16
  | ⟨.nextWithin _, some (.message t body)⟩ =>
      if t = typeOpen then (checkOpen body s.peer.asn).toOption.map (min holdTime) else none
  | _ => none

/-- The hold time agreed on with the peer's OPEN. -/
def Speaker.negotiated (s : Speaker) : Log → Option UInt16
  | [] => none
  | event :: past => (negotiated s past).or (s.agrees event)

theorem Speaker.negotiated_later {s : Speaker} {log : Log} {hold : UInt16}
    (agreed : s.negotiated log = some hold) (event : Event Op Op.Ans) :
    s.negotiated (event :: log) = some hold := by
  rw [negotiated, agreed, Option.some_or]

/-- When the clock was last read. -/
def lastNow : Log → Option Instant
  | [] => none
  | ⟨.now, now⟩ :: _ => some now
  | ⟨_, _⟩ :: past => lastNow past

/-- A message was taken, and the clock not read since. -/
def untimed : Log → Bool
  | [] => false
  | ⟨.now, _⟩ :: _ => false
  | event :: past => (heard event).isSome || untimed past

theorem untimed_of_heard {event : Event Op Op.Ans} {message : UInt8 × List UInt8}
    (read : heard event = some message) (past : Log) : untimed (event :: past) = true := by
  obtain ⟨op, answer⟩ := event
  cases op with
  | now => cases read
  | _ => simp [untimed, read]

theorem untimed_other {event : Event Op Op.Ans} (quiet : heard event = none)
    (other : event.1 ≠ .now) (past : Log) : untimed (event :: past) = untimed past := by
  obtain ⟨op, answer⟩ := event
  cases op with
  | now => exact absurd rfl other
  | _ => simp [untimed, quiet]

theorem lastNow_other {event : Event Op Op.Ans} (other : event.1 ≠ .now) (past : Log) :
    lastNow (event :: past) = lastNow past := by
  obtain ⟨op, answer⟩ := event
  cases op with
  | now => exact absurd rfl other
  | _ => rfl

namespace Speaker

/-- The deadline is a hold time after the clock was read for all that was taken. -/
def Timed (s : Speaker) (deadline : Instant) (hold : UInt16) (log : Log) : Prop :=
  s.negotiated log = some hold ∧ (hold ≠ 0 → untimed log = false ∧
    ∃ now, lastNow log = some now ∧ deadline = now + secs hold.toNat)

/-- A session selects with such a deadline. -/
def SelectsTimed (s : Speaker) (op : Op) (past : Log) : Prop :=
  match op with
  | .select deadline => ∃ hold, s.Timed deadline hold past
  | _ => True

def Ends (s : Speaker) : Established ⊕ Exit → Log → Prop :=
  LoopPost (fun e log => s.Timed e.holdDeadline e.hold log) fun _ _ => True

section

open Program (Keeps)

variable {s : Speaker} {e : Established} {log : Log} {hold : UInt16}

theorem keeps_notify_timed (code sub : UInt8) (why : String) :
    Keeps s.SelectsTimed s.Ends (notify code sub why) log :=
  ⟨trivial, fun _ => trivial⟩

theorem keeps_writeOr_timed {m : Message} {rest : Prog (Established ⊕ Exit)}
    (goesOn : Keeps s.SelectsTimed s.Ends rest (⟨.write m, none⟩ :: log)) :
    Keeps s.SelectsTimed s.Ends (writeOr m rest) log := by
  refine ⟨trivial, fun failed => ?_⟩
  cases failed with
  | none => exact goesOn
  | some error => trivial

theorem keeps_openConfirm_timed (agreed : s.negotiated log = some hold) :
    Keeps s.SelectsTimed s.Ends (openConfirm hold) log := by
  refine ⟨trivial, fun next => ?_⟩
  cases next with
  | none => exact keeps_notify_timed _ _ _
  | some next =>
      cases next with
      | failed error => trivial
      | message t body =>
          simp only [Program.done_bind]
          split
          · refine ⟨trivial, fun _ => ⟨trivial, fun now => ⟨trivial, fun _ => ?_⟩⟩⟩
            refine ⟨by simp only [negotiated, agreed, Option.some_or], fun positive => ?_⟩
            exact ⟨by simp [untimed, heard], now, by simp [lastNow], by simp [positive]⟩
          · split
            · trivial
            · exact keeps_notify_timed _ _ _

theorem keeps_openSent_timed (silent : s.negotiated log = none) :
    Keeps s.SelectsTimed s.Ends s.openSent log := by
  refine ⟨trivial, fun next => ?_⟩
  cases next with
  | none => exact keeps_notify_timed _ _ _
  | some next =>
      cases next with
      | failed error => trivial
      | message t body =>
          simp only [Program.done_bind]
          split
          · rename_i opens
            cases checked : checkOpen body s.peer.asn with
            | error refusal => exact keeps_notify_timed _ _ _
            | ok peerHold =>
                refine keeps_writeOr_timed (keeps_openConfirm_timed ?_)
                simp [negotiated, agrees, silent, opens, checked, Except.toOption]
          · split
            · trivial
            · exact keeps_notify_timed _ _ _

theorem keeps_start_timed (s : Speaker) : Keeps s.SelectsTimed s.Ends s.start [] := by
  refine ⟨trivial, fun ended => ?_⟩
  cases ended with
  | timedOut => trivial
  | failed error => trivial
  | connected => exact keeps_writeOr_timed (keeps_openSent_timed rfl)

/-- What takes no message and reads no clock leaves the deadline timed. -/
theorem Timed.later {deadline : Instant} (timed : s.Timed deadline hold log)
    {event : Event Op Op.Ans} (quiet : heard event = none) (other : event.1 ≠ .now) :
    s.Timed deadline hold (event :: log) := by
  refine ⟨negotiated_later timed.1 _, fun nonzero => ?_⟩
  rw [untimed_other quiet other, lastNow_other other]
  exact timed.2 nonzero

theorem keeps_onChanged_timed (timed : s.Timed e.holdDeadline e.hold log) :
    Keeps s.SelectsTimed s.Ends (s.onChanged e) log := by
  refine ⟨trivial, fun want => ?_⟩
  have seen : s.Timed e.holdDeadline e.hold (⟨.borrowAndUpdate, want⟩ :: log) :=
    timed.later rfl (by simp)
  simp only [Program.done_bind]
  split
  · exact keeps_writeOr_timed (seen.later rfl (by simp))
  · split
    · exact keeps_writeOr_timed (seen.later rfl (by simp))
    · exact seen

theorem keeps_onType_timed {t : UInt8} {body : List UInt8}
    (timed : s.Timed e.holdDeadline e.hold log) :
    Keeps s.SelectsTimed s.Ends (onType e t body) log := by
  unfold onType
  split
  · exact timed
  · split
    · trivial
    · split
      · exact keeps_notify_timed _ _ _
      · exact keeps_notify_timed _ _ _

/-- The clock is read for the message that was taken. -/
theorem keeps_onMessage_timed {t : UInt8} {body : List UInt8}
    (agreed : s.negotiated log = some e.hold) :
    Keeps s.SelectsTimed s.Ends (onMessage e t body) log := by
  unfold onMessage
  split
  · rename_i zero
    exact keeps_onType_timed ⟨agreed, fun nonzero => absurd zero nonzero⟩
  · refine ⟨trivial, fun now => keeps_onType_timed ?_⟩
    exact ⟨negotiated_later agreed _, fun _ => ⟨rfl, now, rfl, rfl⟩⟩

theorem keeps_turn_timed (timed : s.Timed e.holdDeadline e.hold log) :
    Keeps s.SelectsTimed s.Ends (s.turn e) log := by
  refine ⟨⟨e.hold, timed⟩, fun ready => ?_⟩
  cases ready with
  | ticked => exact keeps_writeOr_timed ((timed.later rfl (by simp)).later rfl (by simp))
  | holdExpired => exact keeps_notify_timed _ _ _
  | senderGone => trivial
  | changed => exact keeps_onChanged_timed (timed.later rfl (by simp))
  | next next =>
      cases next with
      | failed error => trivial
      | message t body =>
          exact keeps_onMessage_timed (negotiated_later timed.1 _)

end

end Speaker

/-! ## The channel and the clock -/

/-- The hold timer's branch was taken: the session ends with the NOTIFICATION. -/
structure Expiry where
  moment : Instant
  /-- When the messages in the channel entered it. -/
  waiting : List Instant
  /-- When all messages so far entered the channel. -/
  entered : List Instant

/-- What a session runs on: the clock, the watch, the reader's channel and the ticker. -/
structure Line where
  clock : Instant
  watch : Watch
  /-- The messages in the channel, each with the time it entered. -/
  waiting : List (Instant × UInt8 × List UInt8)
  /-- The reader ended. -/
  closed : Bool
  /-- The next tick, and the period. -/
  ticker : Instant × Instant
  entered : List Instant
  expiries : List Expiry

namespace Line

/-- The channel's capacity. -/
def capacity : Nat := 16

/-- The next message is taken from the channel; once it is empty, the reader's error. -/
def take (line : Line) : Next → Option Line
  | .message t body =>
      match line.waiting with
      | (_, message) :: rest =>
          if message = (t, body) then some { line with waiting := rest } else none
      | [] => none
  | .failed _ => if line.waiting = [] ∧ line.closed = true then some line else none

/-- What a step may be answered: of `select!` any ready branch. -/
def serve (line : Line) (op : Op) (answer : op.Ans) : Option Line :=
  match op, answer with
  | .nextWithin _, some next => line.take next
  | .nextWithin _, none => if line.waiting = [] then some line else none
  | .firstTick period, _ => some { line with ticker := (line.clock + period, period) }
  | .now, now => if now = line.clock then some line else none
  | .select _, .ticked =>
      if line.ticker.1 ≤ line.clock then
        some { line with ticker := (line.ticker.1 + line.ticker.2, line.ticker.2) }
      else none
  | .select deadline, .holdExpired =>
      if deadline ≤ line.clock then
        some { line with
          expiries := ⟨line.clock, line.waiting.map Prod.fst, line.entered⟩ :: line.expiries }
      else none
  | .select _, .next next => line.take next
  | op, answer => (line.watch.serve op answer).map fun watch => { line with watch }

/-- Time passes. -/
def pass (line : Line) (span : Instant) : Line :=
  { line with clock := line.clock + span }

/-- A message enters the channel. -/
def enter (line : Line) (t : UInt8) (body : List UInt8) : Line :=
  { line with
    waiting := line.waiting ++ [(line.clock, t, body)]
    entered := line.clock :: line.entered }

/-- Time passes, a message enters the channel, the reader ends, or the health state changes. -/
inductive Drifts (line : Line) : Line → Prop where
  | passes (span : Instant) : Drifts line (line.pass span)
  | enters (t : UInt8) (body : List UInt8) (room : line.waiting.length < capacity)
      (reading : line.closed = false) : Drifts line (line.enter t body)
  | ends : Drifts line { line with closed := true }
  | sent (value : Bool) : Drifts line { line with watch := { value, unseen := true } }

/-- Nothing has entered the channel. -/
def start (clock : Instant) (watch : Watch) : Line where
  clock := clock
  watch := watch
  waiting := []
  closed := false
  ticker := (0, 0)
  entered := []
  expiries := []

/-- When the hold timer's branch is taken, what waits in the channel has waited that long. -/
def ExpiresStale (line : Line) (hold : UInt16) : Prop :=
  ∀ expiry ∈ line.expiries, ∀ entered ∈ expiry.waiting, entered + secs hold.toNat ≤ expiry.moment

/-- No message entered the channel during the last so many seconds of an expired session. -/
def ExpiresSilent (line : Line) (hold : UInt16) : Prop :=
  ∀ expiry ∈ line.expiries, ∀ entered ∈ expiry.entered, entered + secs hold.toNat ≤ expiry.moment

end Line

/-- The session on its line. -/
def Speaker.onLine (s : Speaker) : Threads Unit Op Op.Ans Established Exit Line where
  first _ := s.start
  body _ := s.turn
  serves _ := Line.serve
  drifts := Line.Drifts

/-- Where the session stands, what it did, and its line. -/
abbrev OnLine := Config Unit Op Op.Ans Established Exit Line

/-! ## What was entered is waiting, or timed -/

/-- What entered the channel is accounted for. -/
structure Line.Accounts (s : Speaker) (log : Log) (line : Line) : Prop where
  past : ∀ entered ∈ line.entered, entered ≤ line.clock
  timed : untimed log = false → ∀ entered ∈ line.entered,
    entered ∈ line.waiting.map Prod.fst ∨ ∃ now, lastNow log = some now ∧ entered ≤ now
  waits : line.waiting.map Prod.fst ⊆ line.entered
  waited : ∀ expiry ∈ line.expiries, expiry.waiting ⊆ expiry.entered
  expired : ∀ expiry ∈ line.expiries, ∃ hold, s.negotiated log = some hold ∧
    (hold ≠ 0 → ∀ entered ∈ expiry.entered, entered ∈ expiry.waiting ∨
      entered + secs hold.toNat ≤ expiry.moment)

section

variable {s : Speaker} {log : Log} {line after : Line}

theorem Line.Accounts.drift (accounts : line.Accounts s log) (drifts : line.Drifts after) :
    after.Accounts s log := by
  obtain ⟨past, timed, waits, waited, expired⟩ := accounts
  cases drifts with
  | passes span =>
      exact ⟨fun entered member => Nat.le_add_right_of_le (past entered member), timed, waits,
        waited, expired⟩
  | enters t body room reading =>
      refine ⟨fun entered member => ?_, fun read entered member => ?_, fun entered member => ?_,
        waited, expired⟩
      · rcases List.mem_cons.mp member with rfl | before
        · exact Nat.le_refl _
        · exact past entered before
      · rw [Line.enter, List.map_append]
        rcases List.mem_cons.mp member with rfl | before
        · exact .inl (List.mem_append_right _ (by simp))
        · exact (timed read entered before).imp_left fun waits => List.mem_append_left _ waits
      · rw [Line.enter, List.map_append] at member
        rcases List.mem_append.mp member with before | now
        · exact List.mem_cons_of_mem _ (waits before)
        · obtain rfl := List.mem_singleton.mp now
          exact List.mem_cons_self
  | ends => exact ⟨past, timed, waits, waited, expired⟩
  | sent value => exact ⟨past, timed, waits, waited, expired⟩

/-- What a step does to the line. -/
inductive Line.Serves (line : Line) : Event Op Op.Ans → Line → Prop where
  | took (event : Event Op Op.Ans) (message : UInt8 × List UInt8)
      (read : heard event = some message) :
      Serves line event { line with waiting := line.waiting.tail }
  | clock : Serves line ⟨.now, line.clock⟩ line
  | expired (deadline : Instant) (passed : deadline ≤ line.clock) :
      Serves line ⟨.select deadline, .holdExpired⟩
        { line with
          expiries := ⟨line.clock, line.waiting.map Prod.fst, line.entered⟩ :: line.expiries }
  | other (event : Event Op Op.Ans) (quiet : heard event = none) (untimed : event.1 ≠ .now)
      (watch : Watch) (ticker : Instant × Instant) : Serves line event { line with watch, ticker }

theorem Line.take_message {t : UInt8} {body : List UInt8}
    (taken : line.take (.message t body) = some after) :
    after = { line with waiting := line.waiting.tail } := by
  unfold take at taken
  dsimp only at taken
  split at taken
  · rename_i waits
    split at taken
    · cases taken
      rw [waits]
      rfl
    · cases taken
  · cases taken

theorem Line.take_failed {error : String} (taken : line.take (.failed error) = some after) :
    after = line := by
  unfold take at taken
  dsimp only at taken
  split at taken
  · cases taken
    rfl
  · cases taken

theorem Line.serves_of_serve {op : Op} {answer : op.Ans}
    (served : line.serve op answer = some after) : line.Serves ⟨op, answer⟩ after := by
  have watched {op : Op} {answer : op.Ans} (quiet : heard ⟨op, answer⟩ = none)
      (untimed : op ≠ .now)
      (served : ((line.watch.serve op answer).map fun watch => { line with watch }) = some after) :
      line.Serves ⟨op, answer⟩ after := by
    obtain ⟨watch, _, rfl⟩ := Option.map_eq_some_iff.mp served
    exact .other _ quiet untimed watch line.ticker
  cases op with
  | nextWithin wait =>
      cases answer with
      | none =>
          dsimp only [serve] at served
          split at served
          · cases served
            exact .other _ rfl (by simp) line.watch line.ticker
          · cases served
      | some next =>
          cases next with
          | message t body =>
              obtain rfl := take_message served
              exact .took _ (t, body) rfl
          | failed error =>
              obtain rfl := @take_failed line after error served
              exact .other _ rfl (by simp) after.watch after.ticker
  | firstTick period =>
      cases served
      exact .other _ rfl (by simp) line.watch _
  | now =>
      dsimp only [serve] at served
      split at served
      · rename_i same
        cases served
        rw [same]
        exact .clock
      · cases served
  | select deadline =>
      cases answer with
      | ticked =>
          dsimp only [serve] at served
          split at served
          · cases served
            exact .other _ rfl (by simp) line.watch _
          · cases served
      | holdExpired =>
          dsimp only [serve] at served
          split at served
          · rename_i passed
            cases served
            exact .expired deadline passed
          · cases served
      | changed => exact watched rfl (by simp) served
      | senderGone => exact watched rfl (by simp) served
      | next next =>
          cases next with
          | message t body =>
              obtain rfl := take_message served
              exact .took _ (t, body) rfl
          | failed error =>
              obtain rfl := @take_failed line after error served
              exact .other _ rfl (by simp) after.watch after.ticker
  | connect ip port => exact watched rfl (by simp) served
  | write m => exact watched rfl (by simp) served
  | markChanged => exact watched rfl (by simp) served
  | borrowAndUpdate => exact watched rfl (by simp) served

theorem Line.Accounts.serve {event : Event Op Op.Ans} (accounts : line.Accounts s log)
    (lawful : s.SelectsTimed event.1 log) (serves : line.Serves event after) :
    after.Accounts s (event :: log) := by
  obtain ⟨past, timed, waits, waited, expired⟩ := accounts
  have earlier : ∀ expiry ∈ line.expiries, ∃ hold, s.negotiated (event :: log) = some hold ∧
      (hold ≠ 0 → ∀ entered ∈ expiry.entered, entered ∈ expiry.waiting ∨
        entered + secs hold.toNat ≤ expiry.moment) := by
    intro expiry member
    obtain ⟨hold, agreed, silent⟩ := expired expiry member
    exact ⟨hold, Speaker.negotiated_later agreed event, silent⟩
  cases serves with
  | took event message read =>
      refine ⟨past, fun now => ?_, fun entered member => waits ?_, waited, earlier⟩
      · cases (untimed_of_heard read log).symm.trans now
      · rw [List.map_tail] at member
        exact List.mem_of_mem_tail member
  | clock =>
      refine ⟨past, fun _ entered member => .inr ⟨line.clock, rfl, ?_⟩, waits, waited, earlier⟩
      exact past entered member
  | expired deadline passed =>
      refine ⟨past, ?_, waits, fun expiry member => ?_, fun expiry member => ?_⟩
      · rw [untimed_other rfl (by simp), lastNow_other (by simp)]
        exact timed
      · rcases List.mem_cons.mp member with rfl | before
        · exact waits
        · exact waited expiry before
      · rcases List.mem_cons.mp member with rfl | before
        · obtain ⟨hold, agreed, positive⟩ := lawful
          refine ⟨hold, Speaker.negotiated_later agreed _, fun nonzero entered member => ?_⟩
          obtain ⟨read, now, last, rfl⟩ := positive nonzero
          -- What no longer waits was taken before the deadline was moved.
          refine (timed read entered member).imp_right fun early => ?_
          obtain ⟨now', last', early⟩ := early
          cases last.symm.trans last'
          exact (Nat.add_le_add_right early _).trans passed
        · exact earlier expiry before
  | other event quiet other watch ticker =>
      refine ⟨past, ?_, waits, waited, earlier⟩
      rw [untimed_other quiet other, lastNow_other other]
      exact timed

end

/-! ## Every run -/

namespace Speaker

variable {s : Speaker} {clock : Instant} {watch : Watch} {config : OnLine}
  {allowed : Option Unit → OnLine → Prop}

theorem keeps_timed
    (reached : s.onLine.Reaches allowed (s.onLine.initial (.start clock watch)) config) :
    Program.Keeps s.SelectsTimed s.Ends (config.threads ()) (config.histories ()) :=
  (reached.solo ()).keeps s.keeps_start_timed fun _ _ => keeps_turn_timed

theorem accounts_of_reaches
    (reached : s.onLine.Reaches allowed (s.onLine.initial (.start clock watch)) config) :
    config.world.Accounts s (config.histories ()) := by
  induction reached with
  | start =>
      refine ⟨?_, fun _ => ?_, List.nil_subset _, ?_, ?_⟩
      · rintro entered ⟨⟩
      · rintro entered ⟨⟩
      · rintro expiry ⟨⟩
      · rintro expiry ⟨⟩
  | @step config after who before admitted stepped accounts =>
      cases stepped with
      | turn looped => exact accounts
      | drift moved => exact accounts.drift moved
      | @call _ i op next world answer waiting served =>
          have keeps := keeps_timed before
          rw [waiting] at keeps
          rw [Config.advance_histories_self]
          exact accounts.serve keeps.1 (Line.serves_of_serve served)

/--
In every run the peer of an expired session was silent for the hold time exactly
when what waited in the channel had waited that long.
-/
theorem expiresSilent_iff {hold : UInt16}
    (reached : s.onLine.Reaches Threads.anySchedule (s.onLine.initial (.start clock watch)) config)
    (agreed : s.negotiated (config.histories ()) = some hold) (positive : 0 < hold) :
    config.world.ExpiresSilent hold ↔ config.world.ExpiresStale hold := by
  have accounts := accounts_of_reaches reached
  constructor
  · intro silent expiry member entered waits
    exact silent expiry member entered (accounts.waited expiry member waits)
  · intro stale expiry member entered came
    obtain ⟨hold', agreed', taken⟩ := accounts.expired expiry member
    cases agreed.symm.trans agreed'
    rcases taken (UInt16.pos_iff_ne_zero.mp positive) entered came with waits | early
    · exact stale expiry member entered waits
    · exact early

end Speaker

/-! ## A write that takes long -/

namespace Line

/-- The first branch of the two timers' that is ready, and what waits in the channel. -/
def answers (_ : Unit) (line : Line) (op : Op) : op.Ans :=
  match op with
  | .connect .. => .connected
  | .write _ => none
  | .nextWithin _ => line.waiting.head?.map fun (_, t, body) => .message t body
  | .firstTick _ => ()
  | .now => line.clock
  | .markChanged => ()
  | .select deadline => if deadline ≤ line.clock then .holdExpired else .ticked
  | .borrowAndUpdate => line.watch.value

end Line

/-- The OPEN and the KEEPALIVE of a router that offers a hold time of 90 s are in the channel. -/
def greeted : OnLine :=
  { advertiser.onLine.initial (.start 0 ⟨false, false⟩) with
    world := ((Line.start 0 ⟨false, false⟩).enter typeOpen
      ((openMsg 64513 90 ⟨192, 168, 8, 1⟩).drop 19)).enter typeKeepalive [] }

/-- The session is Established, and after 30 s the ticker's branch is taken. -/
def ticking : OnLine :=
  let established := advertiser.onLine.playSchedule Threads.anySchedule Line.answers greeted
    (List.replicate 9 ())
  advertiser.onLine.playSchedule Threads.anySchedule Line.answers
    { established with world := established.world.pass (secs 30) } [()]

/-- Writing the KEEPALIVE takes 65 s, and the line changes so meanwhile. -/
def slowWrite (meanwhile : Line → Line) : OnLine :=
  advertiser.onLine.playSchedule Threads.anySchedule Line.answers
    { ticking with world := meanwhile ticking.world } (List.replicate 3 ())

/-- The peer's KEEPALIVE comes after 30 s. -/
def speaks (line : Line) : Line :=
  ((line.pass (secs 30)).enter typeKeepalive []).pass (secs 35)

def saysNothing (line : Line) : Line :=
  line.pass (secs 65)

theorem reaches_drift {s : Speaker} {start config : OnLine} {line : Line}
    (reached : s.onLine.Reaches Threads.anySchedule start config)
    (drifts : config.world.Drifts line) :
    s.onLine.Reaches Threads.anySchedule start { config with world := line } :=
  reached.step trivial (.drift drifts)

def firstMoment : OnLine :=
  advertiser.onLine.initial (.start 0 ⟨false, false⟩)

theorem reaches_ticking : advertiser.onLine.Reaches Threads.anySchedule firstMoment ticking := by
  have starts : advertiser.onLine.Reaches Threads.anySchedule firstMoment firstMoment := .start
  have opens := reaches_drift starts
    (.enters typeOpen ((openMsg 64513 90 ⟨192, 168, 8, 1⟩).drop 19) (by decide) rfl)
  have greets := reaches_drift opens (.enters typeKeepalive [] (by decide) rfl)
  exact (reaches_drift (greets.playSchedule _ _) (.passes _)).playSchedule _ _

theorem reaches_speaks :
    advertiser.onLine.Reaches Threads.anySchedule firstMoment (slowWrite speaks) := by
  have room : (ticking.world.pass (secs 30)).waiting.length < Line.capacity := by decide +kernel
  have comes := reaches_drift (reaches_drift reaches_ticking (.passes (secs 30)))
    (.enters typeKeepalive [] room rfl)
  exact (reaches_drift comes (.passes (secs 35))).playSchedule _ _

theorem reaches_saysNothing :
    advertiser.onLine.Reaches Threads.anySchedule firstMoment (slowWrite saysNothing) :=
  (reaches_drift reaches_ticking (.passes (secs 65))).playSchedule _ _

instance (line : Line) (hold : UInt16) : Decidable (line.ExpiresSilent hold) :=
  inferInstanceAs (Decidable (∀ expiry ∈ line.expiries, ∀ entered ∈ expiry.entered, _))

/-- A KEEPALIVE has waited for 35 s when the session expires. -/
theorem heard_peer_expired :
    ¬ ∀ (s : Speaker) (clock : Instant) (watch : Watch) (config : OnLine) (hold : UInt16),
      s.onLine.Reaches Threads.anySchedule (s.onLine.initial (.start clock watch)) config →
      s.negotiated (config.histories ()) = some hold → 0 < hold →
        config.world.ExpiresSilent hold := by
  intro silent
  have expired := silent advertiser 0 ⟨false, false⟩ (slowWrite speaks) 90 reaches_speaks
    (by decide +kernel) (by decide)
  exact absurd expired (by decide +kernel)

theorem expiresSilent_iff_saysNothing :
    (slowWrite saysNothing).world.expiries ≠ [] ∧
      ((slowWrite saysNothing).world.ExpiresSilent 90 ↔
        (slowWrite saysNothing).world.ExpiresStale 90) := by
  refine ⟨?_, Speaker.expiresSilent_iff reaches_saysNothing (by decide +kernel) (by decide)⟩
  have expired : (slowWrite saysNothing).world.expiries.length = 1 := by decide +kernel
  intro none
  rw [none] at expired
  cases expired

end StormLb.Bgp
