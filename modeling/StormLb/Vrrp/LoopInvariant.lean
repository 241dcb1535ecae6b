import StormLb.Effects.Trace
import StormLb.Vrrp.LoopLaw

/-!
# What every run of the control loop keeps

The law of single calls, read as an invariant of runs: the controller calls
alternate, the address is held exactly while the loop waits as Master, and a
departing Master resigns on the wire just before it releases.  When `run`
returns, the address is left behind exactly when setting the read timeout or
`recv` failed while the router was Master.
-/

namespace StormLb.Vrrp

open StormLb.Net StormLb.Effects

/-! ## The controller calls alternate -/

inductive ControllerCall where
  | claim
  | release
  deriving DecidableEq, Repr

def Op.controllerCall : Op → Option ControllerCall
  | .claim .. => some .claim
  | .release .. => some .release
  | _ => none

/-- The controller calls, oldest first. -/
def controllerCalls (log : Log) : List ControllerCall :=
  log.trace fun event => event.1.op.controllerCall

/-- A lawful log alternates, and it holds the address while a claim is not yet released. -/
theorem controllerCalls_alternates {p : Params} {log : Log}
    (lawful : History.Always (Lawful p) log) :
    Alternates .claim .release (held log) (controllerCalls log) := by
  induction log with
  | nil => exact Alternates.nil _ _
  | cons event past ih =>
      obtain ⟨now, before⟩ := (History.always_cons _ _ _).mp lawful
      have turns := ih before
      obtain ⟨⟨l, op⟩, answer⟩ := event
      have proper := now.1
      cases op with
      | claim vip iface =>
          have free : held past = false := proper.2.2
          rw [free] at turns
          exact turns.turn
      | release vip iface =>
          have taken : held past = true := proper.2.2.1
          rw [taken] at turns
          exact turns.turn
      | _ => simpa [controllerCalls, Op.controllerCall] using turns

/-! ## The invariant of every run -/

/-- The calls made since a moment and the one about to be made, oldest first. -/
def callsSince {α : Type} (program : Prog α) (later : Log) : List Call :=
  later.reverse.map Sigma.fst ++
    match program with
    | .call op _ => [op]
    | .done _ => []

/-- Right away a priority-0 advertisement, and right after it a release. -/
def ResignsThenReleases {α : Type} (program : Prog α) (later : Log) : Prop :=
  ∃ resignation rest, callsSince program later = resignation :: rest ∧
    resignation.IsResignation ∧
    (later ≠ [] → ∃ release more, rest = release :: more ∧ release.IsRelease)

/-- What holds at every moment of every run of `run_loop`. -/
structure LoopInvariant (p : Params) (program : Prog (Locals ⊕ Exit)) (log : Log) : Prop where
  alternates : ∃ n, controllerCalls log = alternating .claim .release n
  ownAddress : ∀ call ∈ log.map Sigma.fst, ∀ vip iface,
    call.op = .claim vip iface ∨ call.op = .release vip iface →
      vip = p.vip.display ∧ iface = p.iface
  waits : ∀ call next, program = .call call next → call.op = .recvFrom →
    ∃ l, call.locals = some l ∧ Waiting l log
  advertises : ∀ locals packet sent past,
    ⟨⟨locals, .sendTo packet⟩, sent⟩ :: past <:+ log → advertisedPriority packet ≠ 0 →
      ∃ l, locals = some l ∧ l.vr.state = .master
  resigns : ∀ later event past, log = later ++ event :: past → departs event = true →
    ResignsThenReleases program later
  resignsOnce : ∀ locals packet sent past,
    ⟨⟨locals, .sendTo packet⟩, sent⟩ :: past <:+ log → advertisedPriority packet = 0 →
      p.priority ≠ 0 → ∃ event before, past = event :: before ∧ departs event = true

/-- A run owes nothing when it goes round the loop or ends. -/
theorem owes_of_done {p : Params} {value : Locals ⊕ Exit} {log : Log}
    (keeps : Program.Keeps (Lawful p) (LoopPost Ready Settled) (.done value) log) :
    owes log = .nothing := by
  cases value with
  | inl l =>
      have ready : Ready l log := keeps
      exact ready.paid
  | inr exit =>
      have settled : Settled exit log := keeps
      exact settled.paid

/-- What a log owes is what the program does next. -/
theorem next_of_owes {p : Params} {program : Prog (Locals ⊕ Exit)} {log : Log}
    (keeps : Program.Keeps (Lawful p) (LoopPost Ready Settled) program log)
    (owing : owes log ≠ .nothing) :
    ∃ call, callsSince program [] = [call] ∧ call.Pays log := by
  cases program with
  | done value => exact absurd (owes_of_done keeps) owing
  | call call next => exact ⟨call, rfl, keeps.1.2⟩

/-- A departure is followed by its resignation, and that by a release. -/
theorem resigns_of_keeps {p : Params} {program : Prog (Locals ⊕ Exit)} {later past : Log}
    {event : Event Call Call.Ans} (departed : departs event = true)
    (keeps : Program.Keeps (Lawful p) (LoopPost Ready Settled) program (later ++ event :: past))
    (always : History.Always (Lawful p) (later ++ event :: past)) :
    ResignsThenReleases program later := by
  have owing : owes (event :: past) = .resignation := by
    rw [owes, if_pos departed]
  rcases List.eq_nil_or_concat later with rfl | ⟨later, ⟨first, answer⟩, rfl⟩
  · obtain ⟨call, next, pays⟩ := next_of_owes keeps (by simp [owing])
    rw [Call.Pays, List.nil_append, owing] at pays
    exact ⟨call, [], next, pays, by simp⟩
  · have resignation : first.IsResignation := by
      have pays := (always ⟨first, answer⟩ (event :: past) (by simp)).2
      rwa [Call.Pays, owing] at pays
    have owing : owes (⟨first, answer⟩ :: event :: past) = .release := by
      have quiet : departs ⟨first, answer⟩ = false := by
        obtain ⟨l, op⟩ := first
        cases op with
        | sendTo packet => cases l <;> rfl
        | _ => exact resignation.elim
      rw [owes, quiet, owing]
      rfl
    rcases List.eq_nil_or_concat later with rfl | ⟨later, ⟨second, answer'⟩, rfl⟩
    · obtain ⟨call, next, pays⟩ := next_of_owes keeps (by simp [owing])
      rw [Call.Pays, List.concat_eq_append, List.nil_append, List.singleton_append, owing] at pays
      refine ⟨first, [call], ?_, resignation, fun _ => ⟨call, [], rfl, pays⟩⟩
      simpa [callsSince] using next
    · have release : second.IsRelease := by
        have pays := (always ⟨second, answer'⟩ (⟨first, answer⟩ :: event :: past) (by simp)).2
        rwa [Call.Pays, owing] at pays
      exact ⟨first, second :: callsSince program later, by simp [callsSince], resignation,
        fun _ => ⟨second, _, rfl, release⟩⟩

/-- Every run of the loop keeps the invariant at every moment. -/
theorem loop_invariant (p : Params) {program : Prog (Locals ⊕ Exit)} {log : Log}
    (run : Runs p.turnLoop p.startLoop program log) : LoopInvariant p program log := by
  have keeps := run.keeps Params.keeps_startLoop fun _ _ => Params.keeps_turnLoop
  have always := run.always Params.keeps_startLoop fun _ _ => Params.keeps_turnLoop
  constructor
  · obtain ⟨n, calls, _⟩ := controllerCalls_alternates always
    exact ⟨n, calls⟩
  · intro call member vip iface controls
    obtain ⟨⟨⟨locals, op⟩, answer⟩, occurs, rfl⟩ := List.mem_map.mp member
    obtain ⟨later, past, rfl⟩ := List.append_of_mem occurs
    have proper := (always _ past (List.suffix_append _ _)).1
    rcases controls with rfl | rfl
    · exact ⟨proper.1, proper.2.1⟩
    · exact ⟨proper.1, proper.2.1⟩
  · rintro ⟨locals, op⟩ next rfl rfl
    exact keeps.1.1
  · intro locals packet sent past suffix nonzero
    exact (always _ past suffix).1.1 nonzero
  · rintro later event past rfl departed
    exact resigns_of_keeps departed keeps always
  · intro locals packet sent past suffix zero positive
    have owing := (always _ past suffix).1.2 zero positive
    cases past with
    | nil => cases owing
    | cons event before => 
        refine ⟨event, before, rfl, ?_⟩
        by_contra quiet
        rw [owes, if_neg quiet] at owing
        split at owing <;> cases owing

/-- The owner of 192.168.8.50 on eth0, with the settings of `config.rs`. -/
def owner : Params where
  vrid := 51
  priority := 255
  preempt := true
  advertIntervalSecs := 1
  iface := "eth0"
  vip := ⟨192, 168, 8, 50⟩

/-- A healthy node at time 0 where everything succeeds and `recv` answers as given. -/
def answers (heard : Recv) (_ : Log) (call : Call) : call.Ans :=
  match call with
  | ⟨_, .interfaceIpv4 _⟩ => some ⟨192, 168, 8, 10⟩
  | ⟨_, .openSocket _⟩ => true
  | ⟨_, .healthy⟩ => true
  | ⟨_, .now⟩ => (0 : Nat)
  | ⟨_, .claim ..⟩ => true
  | ⟨_, .release ..⟩ => true
  | ⟨_, .sendTo _⟩ => true
  | ⟨_, .stopLoad⟩ => false
  | ⟨_, .handleSet _⟩ => ()
  | ⟨_, .setReadTimeout _⟩ => true
  | ⟨_, .recvFrom⟩ => heard

-- The owner claims and waits in its first turn: seven calls of the head, a turn, five of its own.
theorem loop_invariant_owner :
    ∃ l next, (play owner.turnLoop (answers .timedOut) 13 owner.startLoop []).1 =
        .call ⟨some l, .recvFrom⟩ next ∧ l.vr.state = .master ∧
      LoopInvariant owner (play owner.turnLoop (answers .timedOut) 13 owner.startLoop []).1
        (play owner.turnLoop (answers .timedOut) 13 owner.startLoop []).2 := by
  refine ⟨_, _, rfl, rfl, ?_⟩
  exact loop_invariant owner (Runs.play (answers .timedOut) 13 .start)

/-! ## How `run` returns -/

/-- The latest controller call that succeeded. -/
@[simp] def lastSuccessful : Log → Option ControllerCall
  | [] => none
  | ⟨⟨_, op⟩, answer⟩ :: past =>
      match op, answer with
      | .claim .., true => some .claim
      | .release .., true => some .release
      | _, _ => lastSuccessful past

/-- The controller did what it was asked. -/
@[simp] def controllerSucceeds : Event Call Call.Ans → Bool
  | ⟨⟨_, op⟩, answer⟩ =>
      match op, answer with
      | .claim .., false => false
      | .release .., false => false
      | _, _ => true

/-- While the controller succeeds, the address is left claimed when it is held. -/
theorem lastSuccessful_eq_claim_iff {log : Log}
    (succeed : ∀ event ∈ log, controllerSucceeds event = true) :
    lastSuccessful log = some .claim ↔ held log = true := by
  induction log with
  | nil => simp
  | cons event past ih =>
      obtain ⟨succeeds, earlier⟩ := List.forall_mem_cons.mp succeed
      obtain ⟨⟨l, op⟩, answer⟩ := event
      cases op with
      | claim vip iface =>
          cases answer with
          | true => simp
          | false => cases succeeds
      | release vip iface =>
          cases answer with
          | true => simp
          | false => cases succeeds
      | _ => simpa using ih earlier

/--
However `run` returns, with a controller that succeeds the address is not left
claimed exactly when no `set_read_timeout` and no `recv` failed while Master.
-/
theorem run_releases_iff (p : Params) {exit : Exit} {log : Log}
    (run : Runs p.turnRun p.startRun (.done (.inr exit)) log)
    (succeed : ∀ event ∈ log, controllerSucceeds event = true) :
    lastSuccessful log ≠ some .claim ↔ ∀ event ∈ log, failsAsMaster event = false := by
  have settled : Settled exit log :=
    run.keeps Params.keeps_startRun fun _ _ => Params.keeps_turnRun
  rw [Ne, lastSuccessful_eq_claim_iff succeed, settled.holds]
  simp only [List.any_eq_true, not_exists, not_and, Bool.not_eq_true]

/-- The log of the owner that claims and whose first `recv` fails. -/
def recvFailureLog : Log :=
  (play owner.turnRun (answers .failed) 15 owner.startRun []).2

theorem runs_recvFailureLog :
    Runs owner.turnRun owner.startRun (.done (.inr (.error .recv))) recvFailureLog :=
  Runs.play (answers .failed) 15 .start

/-- Once `recv` fails, the owner returns with the address claimed. -/
theorem run_keeps_address_after_recv_failure :
    ¬ ∀ (p : Params) (exit : Exit) (log : Log),
      Runs p.turnRun p.startRun (.done (.inr exit)) log →
      (∀ event ∈ log, controllerSucceeds event = true) →
        lastSuccessful log ≠ some .claim := by
  intro released
  exact released owner _ recvFailureLog runs_recvFailureLog (by decide) (by decide)

theorem run_releases_iff_recvFailure :
    lastSuccessful recvFailureLog ≠ some .claim ↔
      ∀ event ∈ recvFailureLog, failsAsMaster event = false :=
  run_releases_iff owner runs_recvFailureLog (by decide)

end StormLb.Vrrp
