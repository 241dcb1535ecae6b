import Mathlib.Logic.Function.Basic
import StormLb.Router.Copying

/-!
# Copying as `copy_bidirectional` does

The reference of the splice is a machine over what happens on the two streams.
It forwards both, half-closes a direction at its end, and returns at the first
error of a read or a write.  The splice follows it as long as a direction fails
only after the other has ended; where one fails before, the splice waits on for
the other.
-/

namespace StormLb.Router

open StormLb.Effects StormLb.Text

/-! ## The reference -/

/-- Where one direction is. -/
inductive Transfer where
  | reading
  | writing (bytes : List UInt8)
  | shuttingDown
  | done
  deriving DecidableEq, Repr

/-- What happened to a direction. -/
inductive Outcome where
  | read (result : Except String (List UInt8))
  | wrote (failed : Option String)
  | shutDown

/-- A direction moves on, and forwards so many bytes, or fails. -/
def Transfer.step : Transfer → Outcome → Except String (Transfer × List UInt8)
  | .reading, .read (.error error) => .error error
  | .reading, .read (.ok []) => .ok (.shuttingDown, [])
  | .reading, .read (.ok bytes) => .ok (.writing bytes, [])
  | .writing _, .wrote (some error) => .error error
  | .writing bytes, .wrote none => .ok (.reading, bytes)
  | .shuttingDown, .shutDown => .ok (.done, [])
  | transfer, _ => .ok (transfer, [])

/-- Both directions, each by the side it writes to, and what was returned. -/
structure CopyBoth where
  transfer : Side → Transfer
  forwarded : Side → List UInt8
  returned : Option (Except String Unit)

namespace CopyBoth

def start : CopyBoth where
  transfer _ := .reading
  forwarded _ := []
  returned := none

/-- It returns when both directions are done. -/
def result (transfer : Side → Transfer) : Option (Except String Unit) :=
  if transfer .client = .done ∧ transfer .backend = .done then some (.ok ()) else none

/-- Once it returned, both connections are dropped, and nothing moves any more. -/
def step (both : CopyBoth) (target : Side) (outcome : Outcome) : CopyBoth :=
  match both.returned with
  | some _ => both
  | none =>
      match (both.transfer target).step outcome with
      | .error error => { both with returned := some (.error error) }
      | .ok (transfer, bytes) =>
          let transfers := Function.update both.transfer target transfer
          { transfer := transfers
            forwarded := Function.update both.forwarded target (both.forwarded target ++ bytes)
            returned := result transfers }

variable {both : CopyBoth} {target : Side} {outcome : Outcome}

theorem step_returned {returned : Except String Unit} (ended : both.returned = some returned) :
    both.step target outcome = both := by
  simp only [step, ended]

theorem step_error {error : String} (running : both.returned = none)
    (failed : (both.transfer target).step outcome = .error error) :
    both.step target outcome = { both with returned := some (.error error) } := by
  simp only [step, running, failed]

theorem step_ok {transfer : Transfer} {bytes : List UInt8} (running : both.returned = none)
    (moved : (both.transfer target).step outcome = .ok (transfer, bytes)) :
    both.step target outcome =
      { transfer := Function.update both.transfer target transfer
        forwarded := Function.update both.forwarded target (both.forwarded target ++ bytes)
        returned := result (Function.update both.transfer target transfer) } := by
  simp only [step, running, moved]

end CopyBoth

/-! ## On the events of a connection -/

def Side.other : Side → Side
  | .client => .backend
  | .backend => .client

/-- What an event is to the copying, with the side that its direction writes to. -/
def copying : Event Op Op.Ans → Option (Side × Outcome)
  | ⟨.read stream _, result⟩ => some (stream.side.other, .read result)
  | ⟨.writeAll stream _, failed⟩ => some (stream.side, .wrote failed)
  | ⟨.shutdown stream, _⟩ => some (stream.side, .shutDown)
  | _ => none

/-- What `copy_bidirectional` makes of the same events. -/
def copyBidirectional : Log → CopyBoth
  | [] => .start
  | event :: past =>
      match copying event with
      | some (target, outcome) => (copyBidirectional past).step target outcome
      | none => copyBidirectional past

/-- The side's writer was shut down. -/
def shutDown (side : Side) : Log → Bool
  | [] => false
  | ⟨.shutdown stream, _⟩ :: past => decide (stream.side = side) || shutDown side past
  | _ :: past => shutDown side past

/--
A direction fails only after the other has ended: its reads when the side they
are of was shut down, its writes when the side they are not to was.
-/
def lateFailures : Promise Op Op.Ans
  | .read stream _, .error _, log => shutDown stream.side log = true
  | .writeAll stream _, some _, log => shutDown stream.side.other log = true
  | _, _, _ => True

section

variable {event : Event Op Op.Ans} {log : Log} {side target : Side} {outcome : Outcome}

theorem copyBidirectional_cons (here : copying event = some (target, outcome)) :
    copyBidirectional (event :: log) = (copyBidirectional log).step target outcome := by
  simp only [copyBidirectional, here]

theorem copyBidirectional_quiet (quiet : copying event = none) :
    copyBidirectional (event :: log) = copyBidirectional log := by
  simp only [copyBidirectional, quiet]

theorem written_quiet (quiet : copying event = none) (side : Side) :
    written side (event :: log) = written side log := by
  obtain ⟨op, answer⟩ := event
  cases op with
  | writeAll stream bytes => cases quiet
  | _ => exact List.append_nil _

theorem shutDown_quiet (quiet : copying event = none) (side : Side) :
    shutDown side (event :: log) = shutDown side log := by
  obtain ⟨op, answer⟩ := event
  cases op with
  | shutdown stream => cases quiet
  | _ => rfl

/-- A side is shut down by its own direction. -/
theorem shutDown_cons (here : copying event = some (target, outcome))
    (closed : shutDown side (event :: log) = true) :
    outcome = .shutDown ∧ side = target ∨ shutDown side log = true := by
  obtain ⟨op, answer⟩ := event
  cases op with
  | shutdown stream =>
      obtain ⟨rfl, rfl⟩ := Prod.mk.inj (Option.some.inj here)
      rcases Bool.or_eq_true_iff.mp closed with same | before
      · exact .inl ⟨rfl, (of_decide_eq_true same).symm⟩
      · exact .inr before
  | _ => exact .inr closed

end

/-! ## The splice beside it -/

def Up.transfer : Up → Transfer
  | .reading => .reading
  | .writing bytes => .writing bytes
  | .closing _ => .shuttingDown
  | .done _ => .done

def Down.transfer : Down → Transfer
  | .first => .reading
  | .reading => .reading
  | .writing bytes => .writing bytes
  | .closing => .shuttingDown
  | .done _ => .done

def Splice.transfer (s : Splice) : Side → Transfer
  | .client => s.down.transfer
  | .backend => s.up.transfer

/-- Nothing failed, and both are where the reference has them. -/
structure Running (s : Splice) (both : CopyBoth) : Prop where
  transfer : ∀ side, both.transfer side = s.transfer side
  soundUp : s.up.Sound
  soundDown : s.down.Sound
  returned : both.returned = CopyBoth.result s.transfer

/-- Or one direction failed when the other had ended well, and the reference returned that. -/
inductive Following (s : Splice) (both : CopyBoth) : Prop where
  | running (running : Running s both)
  | upFailed (error : String)
      (up : s.up = .closing (.error error) ∨ s.up = .done (.error error))
      (down : s.down = .done (.ok ())) (returned : both.returned = some (.error error))
  | downFailed (error : String) (up : s.up = .done (.ok ()))
      (down : s.down = .done (.error error)) (returned : both.returned = some (.error error))

/-- The splice between two turns, beside the reference on the same events. -/
structure Alongside (s : Splice) (log : Log) : Prop where
  apart : s.upstream.side = .backend
  bytes : ∀ side, written side log = (copyBidirectional log).forwarded side
  shut : ∀ side, shutDown side log = true → s.transfer side = .done
  following : Following s (copyBidirectional log)

section

variable {s s' : Splice} {both : CopyBoth} {event : Event Op Op.Ans} {log : Log} {target : Side}
  {outcome : Outcome}

theorem Following.running_of_up (following : Following s both)
    (opened : ∀ result, s.up ≠ .closing result) (moves : ∀ result, s.up ≠ .done result) :
    Running s both := by
  rcases following with running | ⟨error, closing | done, down, returned⟩ | ⟨error, up, down, returned⟩
  · exact running
  · exact absurd closing (opened _)
  · exact absurd done (moves _)
  · exact absurd up (moves _)

theorem Following.running_of_down (following : Following s both)
    (moves : ∀ result, s.down ≠ .done result) : Running s both := by
  rcases following with running | ⟨error, up, down, returned⟩ | ⟨error, up, down, returned⟩
  · exact running
  · exact absurd down (moves _)
  · exact absurd down (moves _)

/-- A direction that has not ended keeps the reference from returning. -/
theorem Running.unreturned (running : Running s both) (moves : s.transfer target ≠ .done) :
    both.returned = none := by
  rw [running.returned]
  refine if_neg fun ended => moves ?_
  cases target with
  | client => exact ended.1
  | backend => exact ended.2

theorem Side.eq_or_other (side target : Side) : side = target ∨ side = target.other := by
  cases side <;> cases target <;> decide

theorem Side.other_ne (side : Side) : side.other ≠ side := by
  cases side <;> decide

/-- What is no event of the copying changes nothing. -/
theorem Alongside.later (alongside : Alongside s log) (quiet : copying event = none) :
    Alongside s (event :: log) := by
  constructor
  · exact alongside.apart
  · intro side
    rw [written_quiet quiet, copyBidirectional_quiet quiet]
    exact alongside.bytes side
  · intro side closed
    rw [shutDown_quiet quiet] at closed
    exact alongside.shut side closed
  · rw [copyBidirectional_quiet quiet]
    exact alongside.following

/-- A side that is shut down stays so, and its direction has ended. -/
theorem shut_cons (shut : ∀ side, shutDown side log = true → s.transfer side = .done)
    (here : copying event = some (target, outcome))
    (ends : outcome = .shutDown → s'.transfer target = .done)
    (kept : s.transfer target = .done → s'.transfer target = .done)
    (same : s'.transfer target.other = s.transfer target.other) :
    ∀ side, shutDown side (event :: log) = true → s'.transfer side = .done := by
  intro side closed
  rcases shutDown_cons here closed with ⟨ended, rfl⟩ | before
  · exact ends ended
  · rcases side.eq_or_other target with rfl | rfl
    · exact kept (shut _ before)
    · rw [same]
      exact shut _ before

/-- A direction moves as in the reference. -/
theorem Alongside.moves (alongside : Alongside s log) (running : Running s (copyBidirectional log))
    (unended : s.transfer target ≠ .done) (here : copying event = some (target, outcome))
    (moved : (s.transfer target).step outcome =
      .ok (s'.transfer target, writtenBy target event))
    (ends : outcome = .shutDown → s'.transfer target = .done)
    (same : s'.transfer target.other = s.transfer target.other)
    (nothing : writtenBy target.other event = []) (stream : s'.upstream = s.upstream)
    (soundUp : s'.up.Sound) (soundDown : s'.down.Sound) : Alongside s' (event :: log) := by
  have stepped : copyBidirectional (event :: log) = _ :=
    (copyBidirectional_cons here).trans
      (CopyBoth.step_ok (running.unreturned unended) (by rw [running.transfer, moved]))
  have transfers : Function.update (copyBidirectional log).transfer target (s'.transfer target) =
      s'.transfer := by
    funext side
    rcases side.eq_or_other target with rfl | rfl
    · exact Function.update_self ..
    · rw [Function.update_of_ne target.other_ne, running.transfer, same]
  constructor
  · rw [stream]
    exact alongside.apart
  · intro side
    rw [stepped, written_cons, alongside.bytes side]
    rcases side.eq_or_other target with rfl | rfl
    · exact (Function.update_self side _ (copyBidirectional log).forwarded).symm
    · rw [nothing, List.append_nil]
      exact (Function.update_of_ne target.other_ne _ (copyBidirectional log).forwarded).symm
  · exact shut_cons alongside.shut here ends (fun done => absurd done unended) same
  · rw [transfers] at stepped
    rw [stepped]
    exact .running ⟨fun _ => rfl, soundUp, soundDown, rfl⟩

/-- A direction fails, and the reference returns its error. -/
theorem Alongside.fails {error : String} (alongside : Alongside s log)
    (running : Running s (copyBidirectional log)) (unended : s.transfer target ≠ .done)
    (here : copying event = some (target, outcome)) (opened : outcome ≠ .shutDown)
    (failed : (s.transfer target).step outcome = .error error)
    (nothing : ∀ side, writtenBy side event = []) (stream : s'.upstream = s.upstream)
    (same : s'.transfer target.other = s.transfer target.other)
    (follows : ∀ both, both.returned = some (.error error) → Following s' both) :
    Alongside s' (event :: log) := by
  have stepped : copyBidirectional (event :: log) = _ :=
    (copyBidirectional_cons here).trans
      (CopyBoth.step_error (running.unreturned unended) (by rw [running.transfer, failed]))
  constructor
  · rw [stream]
    exact alongside.apart
  · intro side
    rw [stepped, written_cons, nothing, List.append_nil]
    exact alongside.bytes side
  · exact shut_cons alongside.shut here (fun ended => absurd ended opened)
      (fun done => absurd done unended) same
  · rw [stepped]
    exact follows _ rfl

/-- A half whose direction failed shuts its writer down after the reference has returned. -/
theorem Alongside.closes {returned : Except String Unit} (alongside : Alongside s log)
    (ended : (copyBidirectional log).returned = some returned)
    (here : copying event = some (target, .shutDown)) (nothing : ∀ side, writtenBy side event = [])
    (stream : s'.upstream = s.upstream) (closed : s'.transfer target = .done)
    (same : s'.transfer target.other = s.transfer target.other)
    (follows : Following s' (copyBidirectional log)) : Alongside s' (event :: log) := by
  have stepped : copyBidirectional (event :: log) = copyBidirectional log :=
    (copyBidirectional_cons here).trans (CopyBoth.step_returned ended)
  constructor
  · rw [stream]
    exact alongside.apart
  · intro side
    rw [stepped, written_cons, nothing, List.append_nil]
    exact alongside.bytes side
  · exact shut_cons alongside.shut here (fun _ => closed) (fun _ => closed) same
  · rw [stepped]
    exact follows

theorem Up.eq_done {up : Up} (ended : up.transfer = .done) : ∃ result, up = .done result := by
  cases up with
  | done result => exact ⟨result, rfl⟩
  | _ => cases ended

theorem Down.eq_done {down : Down} (ended : down.transfer = .done) :
    ∃ result, down = .done result := by
  cases down with
  | done result => exact ⟨result, rfl⟩
  | _ => cases ended

theorem up_unended (moves : ∀ result, s.up ≠ .done result) : s.transfer .backend ≠ .done := by
  intro ended
  obtain ⟨result, done⟩ := Up.eq_done ended
  exact moves result done

theorem down_unended (moves : ∀ result, s.down ≠ .done result) : s.transfer .client ≠ .done := by
  intro ended
  obtain ⟨result, done⟩ := Down.eq_done ended
  exact moves result done

/-- When the client was shut down, the direction to it has ended, and well. -/
theorem Alongside.down_ended (alongside : Alongside s log)
    (running : Running s (copyBidirectional log)) (closed : shutDown .client log = true) :
    s.down = .done (.ok ()) := by
  obtain ⟨result, ended⟩ := Down.eq_done (alongside.shut .client closed)
  have sound := running.soundDown
  rw [ended] at sound
  rw [ended, show result = .ok () from sound]

theorem Alongside.up_ended (alongside : Alongside s log)
    (running : Running s (copyBidirectional log)) (closed : shutDown .backend log = true) :
    s.up = .done (.ok ()) := by
  obtain ⟨result, ended⟩ := Up.eq_done (alongside.shut .backend closed)
  have sound := running.soundUp
  rw [ended] at sound
  rw [ended, show result = .ok () from sound]

/-! ### One step of either half -/

/-- Beside the reference, as long as failures come late. -/
def Along (s : Splice) (log : Log) : Prop :=
  log.Admitted lateFailures → Alongside s log

/-- What was written is what the reference forwarded. -/
def Mirrored (log : Log) : Prop :=
  log.Admitted lateFailures → ∀ side, written side log = (copyBidirectional log).forwarded side

theorem Along.mirrored (along : Along s log) : Mirrored log :=
  fun admitted => (along admitted).bytes

theorem Along.moved (along : Along s log)
    (moved : lateFailures event.1 event.2 log → Alongside s log → Alongside s' (event :: log)) :
    Along s' (event :: log) := by
  intro admitted
  obtain ⟨now, before⟩ := History.admitted_cons.mp admitted
  exact moved now (along before)

theorem Along.later (along : Along s log) (quiet : copying event = none) :
    Along s (event :: log) :=
  along.moved fun _ alongside => alongside.later quiet

theorem along_stepUp (moves : ∀ result, s.up ≠ .done result) (along : Along s log) :
    Program.Keeps (fun _ past => Mirrored past) (fun up after => Along { s with up } after)
      (stepUp s.upstream s.up) log := by
  have unended := up_unended moves
  obtain ⟨host, upstream, up, down⟩ := s
  cases up with
  | reading =>
      refine ⟨along.mirrored, fun answer => ?_⟩
      match answer with
      | .error error =>
          refine along.moved fun late alongside => ?_
          have running := alongside.following.running_of_up nofun nofun
          have ended := alongside.down_ended running late
          exact alongside.fails running unended rfl nofun rfl (fun _ => rfl) rfl rfl
            fun both returned => .upFailed error (.inl rfl) ended returned
      | .ok [] =>
          refine along.moved fun _ alongside => ?_
          have running := alongside.following.running_of_up nofun nofun
          exact alongside.moves running unended rfl rfl nofun rfl rfl rfl rfl running.soundDown
      | .ok (b :: bytes) =>
          refine along.moved fun _ alongside => ?_
          have running := alongside.following.running_of_up nofun nofun
          exact alongside.moves running unended rfl rfl nofun rfl rfl rfl trivial running.soundDown
  | writing bytes =>
      refine ⟨along.mirrored, fun failed => ?_⟩
      cases failed with
      | some error =>
          refine along.moved fun late alongside => ?_
          have apart : upstream.side = .backend := alongside.apart
          have here : copying ⟨.writeAll upstream bytes, some error⟩ =
              some (.backend, .wrote (some error)) := congrArg (fun side => some (side, _)) apart
          have closed : shutDown upstream.side.other log = true := late
          rw [apart] at closed
          have running := alongside.following.running_of_up nofun nofun
          have ended := alongside.down_ended running closed
          exact alongside.fails running unended here nofun rfl (fun _ => rfl) rfl rfl
            fun both returned => .upFailed error (.inl rfl) ended returned
      | none =>
          refine along.moved fun _ alongside => ?_
          have apart : upstream.side = .backend := alongside.apart
          have here : copying ⟨.writeAll upstream bytes, none⟩ = some (.backend, .wrote none) :=
            congrArg (fun side => some (side, _)) apart
          have forwarded : writtenBy .backend ⟨.writeAll upstream bytes, none⟩ = bytes :=
            if_pos apart
          have nothing : writtenBy .client ⟨.writeAll upstream bytes, none⟩ = [] :=
            writtenBy_of_ne (ne_client_of_backend apart) bytes
          have running := alongside.following.running_of_up nofun nofun
          exact alongside.moves running unended here (by rw [forwarded]; rfl) nofun rfl nothing rfl
            trivial running.soundDown
  | closing result =>
      refine ⟨along.mirrored, fun _ => along.moved fun _ alongside => ?_⟩
      have apart : upstream.side = .backend := alongside.apart
      have here : copying ⟨.shutdown upstream, ()⟩ = some (.backend, .shutDown) :=
        congrArg (fun side => some (side, _)) apart
      rcases alongside.following with running | ⟨error, closing | done, down, returned⟩ | ⟨_, up, _⟩
      · exact alongside.moves running unended here rfl (fun _ => rfl) rfl rfl rfl running.soundUp
          running.soundDown
      · cases closing
        exact alongside.closes returned here (fun _ => rfl) rfl rfl rfl
          (.upFailed error (.inr rfl) down returned)
      · cases done
      · cases up
  | done result => exact absurd rfl (moves result)

/-- What is no event of the copying is asked. -/
theorem Along.asks {op : Op} (along : Along s log)
    (quiet : ∀ answer, copying ⟨op, answer⟩ = none) :
    Program.Keeps (fun _ past => Mirrored past) (fun _ after => Along s after) (ask op) log :=
  ⟨along.mirrored, fun answer => along.later (quiet answer)⟩

theorem along_recordFirst {host : String} {first : Option (List UInt8)} (along : Along s log) :
    Program.Keeps (fun _ past => Mirrored past) (fun _ after => Along s after)
      (recordFirst host first) log := by
  cases first with
  | some bytes => exact (along.asks fun _ => rfl).bind fun _ _ along => along.asks fun _ => rfl
  | none => exact (along.asks fun _ => rfl).bind fun _ _ along => along.asks fun _ => rfl

/-- The half to the client after a read. -/
def Down.after : Except String (List UInt8) → Down
  | .error error => .done (.error error)
  | .ok [] => .closing
  | .ok bytes => .writing bytes

theorem Along.downReads (along : Along s log) (reads : s.down.transfer = .reading) (size : Nat)
    (answer : Except String (List UInt8)) :
    Along { s with down := .after answer } (⟨.read s.upstream size, answer⟩ :: log) := by
  have moves (result : Except String Unit) : s.down ≠ .done result := by
    intro done
    rw [done] at reads
    cases reads
  have unended := down_unended moves
  refine along.moved fun late alongside => ?_
  have here : copying ⟨.read s.upstream size, answer⟩ = some (.client, .read answer) :=
    congrArg (fun side : Side => some (side.other, _)) alongside.apart
  have running := alongside.following.running_of_down moves
  have stepped (outcome : Outcome) :
      (s.transfer .client).step outcome = Transfer.reading.step outcome :=
    congrArg (Transfer.step · outcome) reads
  match answer with
  | .error error =>
      have closed : shutDown s.upstream.side log = true := late
      rw [alongside.apart] at closed
      have ended := alongside.up_ended running closed
      exact alongside.fails running unended here nofun (stepped _) (fun _ => rfl) rfl rfl
        fun both returned => .downFailed error ended rfl returned
  | .ok [] =>
      exact alongside.moves running unended here (stepped _) nofun rfl rfl rfl running.soundUp
        trivial
  | .ok (b :: bytes) =>
      exact alongside.moves running unended here (stepped _) nofun rfl rfl rfl running.soundUp
        trivial

theorem along_stepDown (moves : ∀ result, s.down ≠ .done result) (along : Along s log) :
    Program.Keeps (fun _ past => Mirrored past) (fun down after => Along { s with down } after)
      (stepDown s.host s.upstream s.down) log := by
  have unended := down_unended moves
  obtain ⟨host, upstream, up, down⟩ := s
  cases down with
  | first =>
      refine ⟨along.mirrored, fun answer => ?_⟩
      have read := along.downReads rfl (16 * 1024) answer
      match answer with
      | .error error => exact (along_recordFirst read).bind fun _ _ along => along
      | .ok [] => exact (along_recordFirst read).bind fun _ _ along => along
      | .ok (b :: bytes) => exact (along_recordFirst read).bind fun _ _ along => along
  | reading =>
      refine ⟨along.mirrored, fun answer => ?_⟩
      have read := along.downReads rfl copyBuffer answer
      match answer with
      | .error error => exact read
      | .ok [] => exact read
      | .ok (b :: bytes) => exact read
  | writing bytes =>
      refine ⟨along.mirrored, fun failed => ?_⟩
      cases failed with
      | some error =>
          refine along.moved fun late alongside => ?_
          have running := alongside.following.running_of_down nofun
          have ended := alongside.up_ended running late
          exact alongside.fails running unended rfl nofun rfl (fun _ => rfl) rfl rfl
            fun both returned => .downFailed error ended rfl returned
      | none =>
          refine along.moved fun _ alongside => ?_
          have running := alongside.following.running_of_down nofun
          exact alongside.moves running unended rfl rfl nofun rfl
            (writtenBy_of_ne client_ne_backend bytes) rfl running.soundUp trivial
  | closing =>
      refine ⟨along.mirrored, fun _ => along.moved fun _ alongside => ?_⟩
      have running := alongside.following.running_of_down nofun
      exact alongside.moves running unended rfl rfl (fun _ => rfl) rfl rfl rfl running.soundUp rfl
  | done result => exact absurd rfl (moves result)

/-! ## Every run -/

/-- The direction ended with an error, which its half may still be shutting down for. -/
def Up.Failed : Up → Prop
  | .closing (.error _) => True
  | .done (.error _) => True
  | _ => False

def Down.Failed : Down → Prop
  | .done (.error _) => True
  | _ => False

/-- One direction has failed, and the splice waits for the other, the client's connection open. -/
def Splice.Waits (s : Splice) (log : Log) : Prop :=
  (s.up.Failed ∧ s.down.transfer ≠ .done ∨ s.down.Failed ∧ s.up.transfer ≠ .done) ∧
    shutDown .client log = false

/--
The splice did as `copy_bidirectional` does on the same events: it forwarded the
same bytes, waits for nothing that the reference would not wait for, and returns
the same.
-/
structure Alike (program : Prog (Serving ⊕ Exit)) (log : Log) : Prop where
  forwarded : ∀ side, written side log = (copyBidirectional log).forwarded side
  waits : ∀ s, program = .done (.inl (.splicing s)) → ¬ s.Waits log
  returned : ∀ exit, program = .done (.inr exit) →
    (copyBidirectional log).returned.map (Except.mapError .io) = some exit

def Splice.start (host : String) (upstream : Stream) : Splice where
  host := host
  upstream := upstream
  up := .reading
  down := .first

theorem Up.Sound.not_failed {up : Up} (sound : up.Sound) : ¬ up.Failed := by
  intro failed
  unfold Up.Failed at failed
  split at failed
  · cases sound
  · cases sound
  · exact failed

theorem Down.Sound.not_failed {down : Down} (sound : down.Sound) : ¬ down.Failed := by
  intro failed
  unfold Down.Failed at failed
  split at failed
  · cases sound
  · exact failed

theorem Following.not_waits (following : Following s both) : ¬ s.Waits log := by
  rintro ⟨waits, _⟩
  rcases following with running | ⟨error, up, down, _⟩ | ⟨error, up, down, _⟩
  · rcases waits with ⟨failed, _⟩ | ⟨failed, _⟩
    · exact running.soundUp.not_failed failed
    · exact running.soundDown.not_failed failed
  · rw [down] at waits
    rcases waits with ⟨_, unended⟩ | ⟨failed, _⟩
    · exact unended rfl
    · exact failed
  · rw [up] at waits
    rcases waits with ⟨failed, _⟩ | ⟨_, unended⟩
    · exact failed
    · exact unended rfl

/-- The reference returned what the halves ended with. -/
theorem Following.returned {up down : Except String Unit} (following : Following s both)
    (upEnded : s.up = .done up) (downEnded : s.down = .done down) :
    both.returned = some (down.bind fun _ => up) := by
  rcases following with running | ⟨error, failed, ended, returned⟩ | ⟨error, ended, failed, returned⟩
  · obtain ⟨_, soundUp, soundDown, returned⟩ := running
    rw [upEnded] at soundUp
    rw [downEnded] at soundDown
    obtain rfl : up = .ok () := soundUp
    obtain rfl : down = .ok () := soundDown
    rw [returned]
    refine if_pos ⟨?_, ?_⟩
    · exact congrArg Down.transfer downEnded
    · exact congrArg Up.transfer upEnded
  · rcases failed with closing | failed
    · cases upEnded.symm.trans closing
    · cases upEnded.symm.trans failed
      cases downEnded.symm.trans ended
      exact returned
  · cases upEnded.symm.trans ended
    cases downEnded.symm.trans failed
    exact returned

/-- What the splice ended with is what the reference returned. -/
def Returned (exit : Exit) (log : Log) : Prop :=
  log.Admitted lateFailures →
    (∀ side, written side log = (copyBidirectional log).forwarded side) ∧
      (copyBidirectional log).returned.map (Except.mapError .io) = some exit

def Serving.Along : Serving → Log → Prop
  | .reading _, _ => False
  | .splicing s, log => Router.Along s log

theorem along_turn (along : Along s log) :
    Program.Keeps (fun _ past => Mirrored past) (LoopPost Serving.Along Returned) s.turn log := by
  unfold Splice.turn
  split
  · rename_i up down upEnded downEnded
    intro admitted
    have alongside := along admitted
    refine ⟨alongside.bytes, ?_⟩
    rw [alongside.following.returned upEnded downEnded]
    rfl
  · rename_i moves
    exact (along_stepDown moves along).bind fun _ _ along => along
  · rename_i moves
    exact (along_stepUp moves along).bind fun _ _ along => along
  · rename_i movesUp movesDown _
    refine ⟨along.mirrored, fun half => ?_⟩
    have chosen : Along s (⟨.choose, half⟩ :: log) := along.later rfl
    cases half with
    | up => exact (along_stepUp movesUp chosen).bind fun _ _ along => along
    | down => exact (along_stepDown movesDown chosen).bind fun _ _ along => along

end

/--
On every schedule on which a direction fails only after the other has ended, the
splice does as `copy_bidirectional` does.
-/
theorem splice_alike (front : Front) (tls : Bool) (host : String) (upstream : Stream)
    (apart : upstream.side = .backend) (program : Prog (Serving ⊕ Exit)) (log : Log)
    (run : Runs (front.turn tls) (.done (.inl (.splicing (.start host upstream)))) program log)
    (late : log.Admitted lateFailures) : Alike program log := by
  have started : Program.Keeps (fun _ past => Mirrored past) (LoopPost Serving.Along Returned)
      (.done (.inl (.splicing (.start host upstream)))) [] := by
    intro _
    refine ⟨apart, fun _ => rfl, nofun, .running ⟨fun side => ?_, trivial, trivial, rfl⟩⟩
    cases side with
    | client => rfl
    | backend => rfl
  have keeps : Program.Keeps (fun _ past => Mirrored past) (LoopPost Serving.Along Returned)
      program log := by
    refine run.keeps started fun serving past along => ?_
    cases serving with
    | reading head => exact along.elim
    | splicing s => exact along_turn along
  match program with
  | .call op next => exact ⟨keeps.1 late, nofun, nofun⟩
  | .done (.inl (.reading head)) => exact False.elim keeps
  | .done (.inl (.splicing s)) =>
      have alongside : Alongside s log := keeps late
      refine ⟨alongside.bytes, ?_, nofun⟩
      rintro _ ⟨⟩
      exact alongside.following.not_waits
  | .done (.inr exit) =>
      obtain ⟨forwarded, returned⟩ := keeps late
      refine ⟨forwarded, nofun, ?_⟩
      rintro _ ⟨⟩
      exact returned

/-! ## A backend that resets the connection -/

def bareFront : Front where
  redirect := none
  nameError _ := none

/-- The client stays, and the backend resets the connection. -/
def resetEarly (_ : Log) (op : Op) : op.Ans :=
  match op with
  | .read .client _ => .ok [0]
  | .read _ _ => .error "connection reset by peer"
  | .writeAll .. => none
  | .shutdown _ => ()
  | .lookup _ => none
  | .certCount => 0
  | .connect _ => none
  | .upstream => none
  | .handshake .. => .timedOut
  | .inc .. => ()
  | .observe .. => ()
  | .choose => .down

/-- The client ends, and the backend resets the connection when it was shut down. -/
def resetLate (log : Log) (op : Op) : op.Ans :=
  match op with
  | .read .client _ => .ok []
  | .read _ _ => if shutDown .backend log then .error "connection reset by peer" else .ok [0]
  | .choose => .up
  | op => resetEarly log op

def spliced : Prog (Serving ⊕ Exit) :=
  .done (.inl (.splicing (.start "metrics.test" .tcp)))

def earlyPlay : Prog (Serving ⊕ Exit) × Log :=
  play (bareFront.turn false) resetEarly 5 spliced []

def latePlay : Prog (Serving ⊕ Exit) × Log :=
  play (bareFront.turn false) resetLate 20 spliced []

/-- The backend's connection failed, and the client's is kept until the client does something. -/
theorem early_reset_waits :
    ¬ ∀ (front : Front) (tls : Bool) (host : String) (upstream : Stream),
      upstream.side = .backend → ∀ (program : Prog (Serving ⊕ Exit)) (log : Log),
        Runs (front.turn tls) (.done (.inl (.splicing (.start host upstream)))) program log →
          Alike program log := by
  intro alike
  have run : Runs (bareFront.turn false) spliced earlyPlay.1 earlyPlay.2 :=
    Runs.play resetEarly 5 .start
  have waiting : earlyPlay.1 = .done (.inl (.splicing
      { Splice.start "metrics.test" .tcp with down := .done (.error "connection reset by peer") })) :=
    rfl
  refine (alike _ _ _ _ rfl _ _ run).waits _ waiting ⟨.inr ⟨trivial, nofun⟩, rfl⟩

theorem resetLate_late (op : Op) (log : Log) : lateFailures op (resetLate log op) log := by
  cases op with
  | read stream size =>
      cases stream with
      | client => exact trivial
      | _ =>
          change lateFailures (.read _ _) (if _ then _ else _) log
          split
          · assumption
          · exact trivial
  | _ => exact trivial

theorem splice_alike_late :
    latePlay.1 = .done (.inr (.error (.io "connection reset by peer"))) ∧
      Alike latePlay.1 latePlay.2 := by
  have run : Runs (bareFront.turn false) spliced latePlay.1 latePlay.2 :=
    Runs.play resetLate 20 .start
  have late : latePlay.2.Admitted lateFailures :=
    play_admitted resetLate (fun op log _ => resetLate_late op log) 20 spliced History.admitted_nil
  exact ⟨rfl, splice_alike bareFront false "metrics.test" .tcp rfl _ _ run late⟩

end StormLb.Router
