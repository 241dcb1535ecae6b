import StormLb.Vrrp.Loop

/-!
# The law of the control loop

What a call of the loop may rely on, given the log before it: a claim finds the
address free and a release finds it held, only a Master advertises, and a Master
that stops or loses its health owes a resignation and right after it a release.
Each part of a turn keeps the law, and so do the loop and `run`.
-/

namespace StormLb.Vrrp

open StormLb.Net StormLb.Effects

/-! ## Reading the log -/

/-- The address is claimed and not released since. -/
@[simp] def held : Log → Bool
  | [] => false
  | ⟨call, _⟩ :: past =>
      match call.op with
      | .claim .. => true
      | .release .. => false
      | _ => held past

/-- What the handle shows. -/
@[simp] def shown : Log → Option State
  | [] => none
  | ⟨call, _⟩ :: past =>
      match call.op with
      | .handleSet state => some state
      | _ => shown past

/-- The latest health answer. -/
@[simp] def latestHealth : Log → Option Bool
  | [] => none
  | ⟨⟨_, op⟩, answer⟩ :: past =>
      match op, answer with
      | .healthy, answer => some answer
      | _, _ => latestHealth past

/-- A Master is told to stop, or hears that it is not healthy. -/
@[simp] def departs : Event Call Call.Ans → Bool
  | ⟨⟨some l, op⟩, answer⟩ =>
      match op, answer with
      | .stopLoad, true => l.vr.state = .master
      | .healthy, false => l.vr.state = .master
      | _, _ => false
  | ⟨⟨none, _⟩, _⟩ => false

inductive Owed where
  | nothing
  | resignation
  | release
  deriving DecidableEq, Repr

/-- What a departure still owes: a resignation, and right after it a release. -/
@[simp] def owes : Log → Owed
  | [] => .nothing
  | event :: past =>
      if departs event then .resignation
      else if owes past = .resignation then .release
      else .nothing

/-- The last thing that happened is the arrival of a datagram. -/
@[simp] def received : Log → Bool
  | ⟨⟨_, op⟩, answer⟩ :: _ =>
      match op, answer with
      | .recvFrom, .datagram _ => true
      | _, _ => false
  | [] => false

/-- Setting the read timeout, or `recv` itself, fails while the router is Master. -/
@[simp] def failsAsMaster : Event Call Call.Ans → Bool
  | ⟨⟨some l, op⟩, answer⟩ =>
      match op, answer with
      | .setReadTimeout _, false => l.vr.state = .master
      | .recvFrom, .failed => l.vr.state = .master
      | _, _ => false
  | ⟨⟨none, _⟩, _⟩ => false

/-- An advertisement of priority 0. -/
def Call.IsResignation (call : Call) : Prop :=
  match call.op with
  | .sendTo packet => advertisedPriority packet = 0
  | _ => False

def Call.IsRelease (call : Call) : Prop :=
  match call.op with
  | .release .. => True
  | _ => False

/-! ## The law of one call -/

/-- What holds whenever the loop waits in `recv`. -/
structure Waiting (l : Locals) (past : Log) : Prop where
  holds : held past = true ↔ l.vr.state = .master
  shows : shown past = some l.vr.state
  healthy : l.vr.state = .master → latestHealth past = some true

/-- What each kind of call may rely on. -/
def Call.Proper (p : Params) (call : Call) (past : Log) : Prop :=
  match call.op with
  | .claim vip iface => vip = p.vip.display ∧ iface = p.iface ∧ held past = false
  | .release vip iface => vip = p.vip.display ∧ iface = p.iface ∧ held past = true ∧
      (owes past = .release ∨ received past = true)
  | .sendTo packet =>
      (advertisedPriority packet ≠ 0 → ∃ l, call.locals = some l ∧ l.vr.state = .master) ∧
      (advertisedPriority packet = 0 → p.priority ≠ 0 → owes past = .resignation)
  | .recvFrom => ∃ l, call.locals = some l ∧ Waiting l past
  | _ => True

/-- A call pays what the log owes. -/
def Call.Pays (call : Call) (past : Log) : Prop :=
  match owes past with
  | .nothing => True
  | .resignation => call.IsResignation
  | .release => call.IsRelease

def Lawful (p : Params) (call : Call) (past : Log) : Prop :=
  call.Proper p past ∧ call.Pays past

/-! ## The loop keeps the law -/

/-- What holds whenever a turn begins. -/
structure Ready (l : Locals) (log : Log) : Prop where
  holds : held log = true ↔ l.vr.state = .master
  started : l.vr.state ≠ .init
  paid : owes log = .nothing
  sound : log.any failsAsMaster = false

/-- What holds after the health check: a Master has just heard that it is healthy. -/
structure Checked (l : Locals) (log : Log) : Prop extends Ready l log where
  healthy : l.vr.state = .master → latestHealth log = some true

/-- However the loop is left, it owes nothing, and only a failure leaves the address held. -/
structure Settled (_ : Exit) (log : Log) : Prop where
  paid : owes log = .nothing
  holds : held log = log.any failsAsMaster

section

open Program (Keeps)

variable {p : Params} {l : Locals} {log : Log}

/-- While nothing is owed, a call need only be proper. -/
theorem lawful_of_paid {call : Call} (paid : owes log = .nothing) (proper : call.Proper p log) :
    Lawful p call log := by
  refine ⟨proper, ?_⟩
  rw [Call.Pays, paid]
  trivial

theorem owes_quiet {event : Event Call Call.Ans} (quiet : departs event = false)
    (paid : owes log = .nothing) : owes (event :: log) = .nothing := by
  rw [owes, quiet, paid]
  rfl

theorem Ready.held_eq (ready : Ready l log) : held log = decide (l.vr.state = .master) := by
  rw [Bool.eq_iff_iff, decide_eq_true_iff]
  exact ready.holds

namespace Params

theorem keeps_startLoop : Keeps (Lawful p) (LoopPost Ready Settled) p.startLoop [] := by
  refine ⟨lawful_of_paid rfl trivial, fun found => ?_⟩
  cases found with
  | none => exact ⟨rfl, rfl⟩
  | some ifaceIp =>
      refine ⟨lawful_of_paid rfl trivial, fun opened => ?_⟩
      cases opened with
      | false => exact ⟨rfl, rfl⟩
      | true =>
          refine ⟨lawful_of_paid rfl trivial, fun healthy => ?_⟩
          refine ⟨lawful_of_paid rfl trivial, fun _ => ?_⟩
          refine ⟨lawful_of_paid rfl trivial, fun nextAdvert => ?_⟩
          refine ⟨lawful_of_paid rfl trivial, fun now => ?_⟩
          simp only [Program.done_bind]
          rcases p.router.start_state healthy with ⟨master, _⟩ | backup
          · rw [if_pos master]
            refine ⟨lawful_of_paid rfl ⟨rfl, rfl, rfl⟩, fun _ => ?_⟩
            exact ⟨by simp [master], by simp [master], rfl, rfl⟩
          · rw [if_neg (by simp [backup])]
            exact ⟨by simp [backup], by simp [backup], rfl, rfl⟩

/-- A Master that is told to stop leaves its address to others. -/
theorem keeps_stopped (ready : Ready l log) :
    Keeps (Lawful p) (LoopPost Ready Settled) (p.stopped l)
      (⟨⟨some l, .stopLoad⟩, true⟩ :: log) := by
  by_cases master : l.vr.state = .master
  · have holds := ready.holds.mpr master
    simp only [stopped, if_pos master]
    refine ⟨⟨?_, ?_⟩, fun _ => ⟨⟨?_, ?_⟩, fun _ => ⟨?_, ?_⟩⟩⟩
    · simp [Call.Proper, packet, master]
    · simp [Call.Pays, Call.IsResignation, packet, master]
    · simp [Call.Proper, holds, master]
    · simp [Call.Pays, Call.IsRelease, master]
    · simp [master]
    · simp [ready.sound]
  · have free : held log = false := by simpa [master] using ready.holds
    simp only [stopped, if_neg master]
    exact ⟨by simp [master, ready.paid], by simp [free, ready.sound]⟩

/-- After the health check a Master is healthy, and a Master that was not has released. -/
theorem keeps_checkHealth (ready : Ready l log) :
    Keeps (Lawful p) Checked (p.checkHealth l) log := by
  refine ⟨lawful_of_paid ready.paid trivial, fun healthy => ?_⟩
  simp only [Program.done_bind]
  rcases l.vr.onHealth_cases healthy with ⟨master, rfl, resigns⟩ | ⟨well, same⟩
  · have holds := ready.holds.mpr master
    simp only [resigns, if_true]
    refine ⟨⟨?_, ?_⟩, fun _ => ⟨⟨?_, ?_⟩, fun _ => ⟨?_, fun now => ?_⟩⟩⟩
    · simp [Call.Proper, packet, master]
    · simp [Call.Pays, Call.IsResignation, packet, master]
    · simp [Call.Proper, holds, master]
    · simp [Call.Pays, Call.IsRelease, master]
    · exact lawful_of_paid (by simp [master]) trivial
    · exact
        { holds := by simp
          started := by simp
          paid := by simp [master]
          sound := by simp [ready.sound]
          healthy := by simp }
  · have quiet : departs ⟨⟨some l, .healthy⟩, healthy⟩ = false := by
      cases healthy with
      | true => rfl
      | false => simpa using well
    simp only [same]
    exact
      { holds := ready.holds
        started := ready.started
        paid := owes_quiet quiet ready.paid
        sound := by simp [ready.sound]
        healthy := fun master => by simp [well master] }

/-- A datagram only ever demotes a Master, which then releases. -/
theorem keeps_onDatagram (ready : Ready l log) (data : List UInt8) :
    Keeps (Lawful p) (LoopPost Ready Settled) (p.onDatagram l data)
      (⟨⟨some l, .recvFrom⟩, .datagram data⟩ :: log) := by
  have unchanged : Ready l (⟨⟨some l, .recvFrom⟩, .datagram data⟩ :: log) :=
    ⟨ready.holds, ready.started, by simp [ready.paid], by simp [ready.sound]⟩
  simp only [onDatagram]
  cases parseAdvertisement data p.vrid with
  | none => exact unchanged
  | some a =>
      dsimp only
      split
      · exact unchanged
      · rcases l.vr.onAdvertisement_cases a.priority a.src l.ifaceIp a.intervalCentis with
          ⟨centis, demoted, master, backup⟩ | ⟨ignored, same⟩ |
            ⟨centis, reset, backup, still⟩ | ⟨advertise, master, same⟩
        · simp only [demoted]
          have holds := ready.holds.mpr master
          refine ⟨lawful_of_paid (by simp [ready.paid]) ?_, fun _ => ⟨?_, fun now => ?_⟩⟩
          · simp [Call.Proper, holds]
          · exact lawful_of_paid (by simp [ready.paid]) trivial
          · exact ⟨by simp [backup], by simp [backup], by simp [ready.paid], by simp [ready.sound]⟩
        · simp only [ignored, same]
          exact unchanged
        · simp only [reset]
          refine ⟨lawful_of_paid (by simp [ready.paid]) trivial, fun now => ?_⟩
          exact ⟨by simp [still, ready.holds, backup], by simp [still], by simp [ready.paid],
            by simp [ready.sound]⟩
        · simp only [advertise, same]
          refine ⟨lawful_of_paid (by simp [ready.paid]) trivial, fun now => ?_⟩
          exact ⟨ready.holds, ready.started, by simp [ready.paid], by simp [ready.sound]⟩

theorem keeps_onTimedOut (ready : Ready l log) :
    Keeps (Lawful p) (LoopPost Ready Settled) (p.onTimedOut l)
      (⟨⟨some l, .recvFrom⟩, .timedOut⟩ :: log) := by
  refine ⟨lawful_of_paid (by simp [ready.paid]) trivial, fun now => ?_⟩
  simp only [Program.done_bind]
  split_ifs with advertises elapsed
  · refine ⟨lawful_of_paid (by simp [ready.paid]) ?_, fun _ => ?_⟩
    · simp +contextual [Call.Proper, packet, advertises.1]
    · exact ⟨ready.holds, ready.started, by simp [ready.paid], by simp [ready.sound]⟩
  · have free : held log = false := by simpa [elapsed.1] using ready.holds
    refine ⟨lawful_of_paid (by simp [ready.paid]) trivial, fun healthy => ?_⟩
    simp only [Program.done_bind]
    have quiet : departs ⟨⟨some l, .healthy⟩, healthy⟩ = false := by
      cases healthy <;> simp [elapsed.1]
    rcases l.vr.onMasterDownTimeout_cases healthy with ⟨_, _, taken, takes, master⟩ | stays
    · simp only [takes, if_true]
      refine ⟨lawful_of_paid (owes_quiet quiet (by simp [ready.paid])) ?_, fun _ => ?_⟩
      · simp [Call.Proper, free]
      · exact ⟨by simp [master], by simp [master], 
          owes_quiet rfl (owes_quiet quiet (by simp [ready.paid])), by simp [ready.sound]⟩
    · simp only [stays]
      exact ⟨ready.holds, ready.started, owes_quiet quiet (by simp [ready.paid]),
        by simp [ready.sound]⟩
  · exact ⟨ready.holds, ready.started, by simp [ready.paid], by simp [ready.sound]⟩

theorem keeps_await (checked : Checked l log) :
    Keeps (Lawful p) (LoopPost Ready Settled) (p.await l) log := by
  refine ⟨lawful_of_paid checked.paid trivial, fun _ => ?_⟩
  refine ⟨lawful_of_paid (by simp [checked.paid]) trivial, fun now => ?_⟩
  refine ⟨lawful_of_paid (by simp [checked.paid]) trivial, fun timed => ?_⟩
  cases timed with
  | false =>
      exact ⟨by simp [checked.paid], by simp [checked.sound, checked.held_eq]⟩
  | true =>
      refine ⟨lawful_of_paid (by simp [checked.paid]) ?_, fun heard => ?_⟩
      · exact ⟨l, rfl, checked.holds, rfl, checked.healthy⟩
      · have ready : Ready l (⟨⟨some l, .setReadTimeout (readTimeout l now)⟩, true⟩ ::
            ⟨⟨some l, .now⟩, now⟩ :: ⟨⟨some l, .handleSet l.vr.state⟩, ()⟩ :: log) :=
          ⟨checked.holds, checked.started, by simp [checked.paid], by simp [checked.sound]⟩
        cases heard with
        | datagram data => exact keeps_onDatagram ready data
        | timedOut => exact keeps_onTimedOut ready
        | failed =>
            exact ⟨by simp [checked.paid], by simp [checked.sound, checked.held_eq]⟩

/-- Every turn of the loop keeps the law. -/
theorem keeps_turnLoop (ready : Ready l log) :
    Keeps (Lawful p) (LoopPost Ready Settled) (p.turnLoop l) log := by
  refine ⟨lawful_of_paid ready.paid trivial, fun stop => ?_⟩
  cases stop with
  | true => exact keeps_stopped ready
  | false =>
      have goesOn : Ready l (⟨⟨some l, .stopLoad⟩, false⟩ :: log) :=
        ⟨ready.holds, ready.started, by simp [ready.paid], by simp [ready.sound]⟩
      exact (keeps_checkHealth goesOn).bind fun _ _ checked => keeps_await checked

/-! ## Leaving `run` -/

theorem keeps_leave {program : Prog (Locals ⊕ Exit)}
    (keeps : Keeps (Lawful p) (LoopPost Ready Settled) program log) :
    Keeps (Lawful p) (LoopPost Ready Settled) (program.bind leave) log := by
  refine keeps.bind fun value log settled => ?_
  cases value with
  | inl l => exact settled
  | inr exit =>
      have settled : Settled exit log := settled
      refine ⟨lawful_of_paid settled.paid trivial, fun _ => ?_⟩
      exact ⟨by simp [settled.paid], by simp [settled.holds]⟩

theorem keeps_startRun : Keeps (Lawful p) (LoopPost Ready Settled) p.startRun [] :=
  keeps_leave keeps_startLoop

theorem keeps_turnRun (ready : Ready l log) :
    Keeps (Lawful p) (LoopPost Ready Settled) (p.turnRun l) log :=
  keeps_leave (keeps_turnLoop ready)

end Params

end

end StormLb.Vrrp
