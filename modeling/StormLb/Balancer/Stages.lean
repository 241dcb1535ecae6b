import StormLb.Balancer
import StormLb.Metrics.Guards

/-!
# The stages of a connection

An automaton over what a task does: how far its connection is, which counters it
went up in and which guard it holds.  The task follows it on every path.
-/

namespace StormLb.Balancer

open StormLb.Effects

/-- The series of this name for a VIP. -/
def vipKey (name vip : String) : Metrics.Key :=
  (name, Metrics.labels (vipLabels vip))

/-- What an operation does with a guard. -/
def handling : Event Op Op.Ans → Option Metrics.Handling
  | ⟨.active name l, guard⟩ => some (.makes name l guard)
  | ⟨.drop guard, _⟩ => some (.drops guard)
  | _ => none

/-- What came of a connection. -/
inductive Fate where
  | refused
  | failed
  | proxied
  deriving DecidableEq, Repr

inductive Stage where
  | arriving
  | counted
  | choosing (guard : Metrics.ActiveGuard)
  | unserved (guard : Metrics.ActiveGuard)
  | chosen (guard : Metrics.ActiveGuard) (be : Backend)
  | undialled (guard : Metrics.ActiveGuard)
  | proxied (guard : Metrics.ActiveGuard)
  | closing (guard : Metrics.ActiveGuard) (fate : Fate)
  | ended (guard : Metrics.ActiveGuard) (fate : Fate)
  deriving DecidableEq

namespace Stage

/-- Up in the counter of this name, with the VIP's label. -/
def count (vip expected name : String) (l : List (List Char × List Char)) (after : Stage) :
    Option Stage :=
  if name = expected ∧ l = vipLabels vip then some after else none

def step (vip : String) : Stage → Event Op Op.Ans → Option Stage
  | .arriving, ⟨.inc name l, _⟩ => count vip connectionsTotal name l .counted
  | .counted, ⟨.active name l, guard⟩ => count vip connectionsActive name l (.choosing guard)
  | .choosing guard, ⟨.pick, none⟩ => some (.unserved guard)
  | .choosing guard, ⟨.pick, some be⟩ => some (.chosen guard be)
  | .unserved guard, ⟨.inc name l, _⟩ =>
      count vip noHealthyBackendTotal name l (.closing guard .refused)
  | .chosen guard be, ⟨.connect addr, failed⟩ =>
      if addr = be.addr then some (if failed.isSome then .undialled guard else .proxied guard)
      else none
  | .undialled guard, ⟨.inc name l, _⟩ =>
      count vip upstreamConnectErrorsTotal name l (.closing guard .failed)
  | .proxied guard, ⟨.drop live, _⟩ => if live = guard then some (.ended guard .proxied) else none
  | .closing guard fate, ⟨.drop live, _⟩ => if live = guard then some (.ended guard fate) else none
  | .proxied guard, ⟨.setNodelay _, _⟩ => some (.proxied guard)
  | .proxied guard, ⟨.copyBidirectional, _⟩ => some (.proxied guard)
  | _, _ => none

/-- The counters that the connection went up in. -/
def incs : Stage → List String
  | .arriving => []
  | .closing _ .refused | .ended _ .refused => [noHealthyBackendTotal, connectionsTotal]
  | .closing _ .failed | .ended _ .failed => [upstreamConnectErrorsTotal, connectionsTotal]
  | _ => [connectionsTotal]

/-- Where it is with its guard. -/
def held (vip : String) : Stage → Metrics.Held
  | .arriving | .counted => .nothing
  | .choosing guard | .unserved guard | .chosen guard _ | .undialled guard | .proxied guard
  | .closing guard _ => .holds (vipKey connectionsActive vip) guard
  | .ended guard _ => .dropped (vipKey connectionsActive vip) guard

end Stage

/-- How far a task is, when it followed the automaton. -/
def stageOf (vip : String) : Log → Option Stage
  | [] => some .arriving
  | event :: past => (stageOf vip past).bind fun stage => stage.step vip event

@[simp] theorem stageOf_nil (vip : String) : stageOf vip [] = some .arriving :=
  rfl

theorem stageOf_cons {vip : String} {past : Log} {stage : Stage}
    (at_ : stageOf vip past = some stage) (event : Event Op Op.Ans) :
    stageOf vip (event :: past) = stage.step vip event := by
  rw [stageOf, at_, Option.bind_some]

/-! ## What a stage has added to the metrics -/

section

variable {vip : String}

theorem Stage.count_eq_some {expected name : String} {l : List (List Char × List Char)}
    {stage after : Stage} (counts : Stage.count vip expected name l stage = some after) :
    name = expected ∧ l = vipLabels vip ∧ after = stage := by
  unfold Stage.count at counts
  split at counts
  · rename_i same
    exact ⟨same.1, same.2, (Option.some.inj counts).symm⟩
  · cases counts

theorem noHealthyBackend_notMem : noHealthyBackendTotal ∉ [connectionsTotal] := by
  decide +kernel

theorem upstreamConnectErrors_notMem : upstreamConnectErrorsTotal ∉ [connectionsTotal] := by
  decide +kernel

/-- A connection goes up in a counter it was not in. -/
theorem Stage.step_inc {stage after : Stage} {name : String} {l : List (List Char × List Char)}
    {answer : Unit} (moves : stage.step vip ⟨.inc name l, answer⟩ = some after) :
    l = vipLabels vip ∧ name ∉ stage.incs ∧ after.incs = name :: stage.incs := by
  cases stage with
  | arriving =>
      obtain ⟨rfl, labels, rfl⟩ := count_eq_some moves
      exact ⟨labels, List.not_mem_nil, rfl⟩
  | unserved guard =>
      obtain ⟨rfl, labels, rfl⟩ := count_eq_some moves
      exact ⟨labels, noHealthyBackend_notMem, rfl⟩
  | undialled guard =>
      obtain ⟨rfl, labels, rfl⟩ := count_eq_some moves
      exact ⟨labels, upstreamConnectErrors_notMem, rfl⟩
  | _ => cases moves

/-- Whether it goes up in a counter. -/
def Op.increments : Op → Bool
  | .inc .. => true
  | _ => false

theorem Stage.step_other {stage after : Stage} {op : Op} {answer : op.Ans}
    (other : op.increments = false) (moves : stage.step vip ⟨op, answer⟩ = some after) :
    after.incs = stage.incs := by
  cases op with
  | inc name l => cases other
  | active name l =>
      cases stage with
      | counted =>
          obtain ⟨_, _, rfl⟩ := count_eq_some moves
          rfl
      | _ => cases moves
  | drop live =>
      cases stage with
      | proxied guard =>
          obtain ⟨rfl, ended⟩ := Option.ite_none_right_eq_some.mp moves
          cases ended
          rfl
      | closing guard fate =>
          obtain ⟨rfl, ended⟩ := Option.ite_none_right_eq_some.mp moves
          cases ended
          cases fate <;> rfl
      | _ => cases moves
  | pick =>
      cases stage with
      | choosing guard =>
          cases answer with
          | none =>
              cases moves
              rfl
          | some be =>
              cases moves
              rfl
      | _ => cases moves
  | connect addr =>
      cases stage with
      | chosen guard be =>
          obtain ⟨_, dialled⟩ := Option.ite_none_right_eq_some.mp moves
          cases dialled
          split
          · rfl
          · rfl
      | _ => cases moves
  | _ =>
      cases stage with
      | proxied guard =>
          cases moves
          rfl
      | _ => cases moves

/-- A stage handles its guard as it should. -/
theorem Stage.step_held {stage after : Stage} {event : Event Op Op.Ans}
    (moves : stage.step vip event = some after) :
    match handling event with
    | none => after.held vip = stage.held vip
    | some act => (stage.held vip).step act = some (after.held vip) := by
  obtain ⟨op, answer⟩ := event
  cases op with
  | inc name l =>
      cases stage with
      | arriving | unserved _ | undialled _ =>
          obtain ⟨rfl, _, rfl⟩ := count_eq_some moves
          rfl
      | _ => cases moves
  | active name l =>
      cases stage with
      | counted =>
          obtain ⟨rfl, rfl, rfl⟩ := count_eq_some moves
          rfl
      | _ => cases moves
  | drop live =>
      cases stage with
      | proxied _ | closing _ _ =>
          obtain ⟨rfl, ended⟩ := Option.ite_none_right_eq_some.mp moves
          cases ended
          exact if_pos rfl
      | _ => cases moves
  | pick =>
      cases stage with
      | choosing guard =>
          cases answer with
          | none =>
              cases moves
              rfl
          | some be =>
              cases moves
              rfl
      | _ => cases moves
  | connect addr =>
      cases stage with
      | chosen guard be =>
          obtain ⟨_, dialled⟩ := Option.ite_none_right_eq_some.mp moves
          cases dialled
          cases answer with
          | none => rfl
          | some error => rfl
      | _ => cases moves
  | _ =>
      cases stage with
      | proxied guard =>
          cases moves
          rfl
      | _ => cases moves

theorem heldOf_of_stageOf {log : Log} {stage : Stage} (at_ : stageOf vip log = some stage) :
    Metrics.heldOf handling log = some (stage.held vip) := by
  induction log generalizing stage with
  | nil =>
      cases at_
      rfl
  | cons event past ih =>
      obtain ⟨before, was, moves⟩ := Option.bind_eq_some_iff.mp at_
      have handled := Stage.step_held moves
      cases acts : handling event with
      | none =>
          rw [acts] at handled
          rw [Metrics.heldOf_of_none acts, ih was, handled]
      | some act =>
          rw [acts] at handled
          rw [Metrics.heldOf_of_some acts, ih was, Option.bind_some, handled]

/-! ## What came of it -/

/-- What came of a connection, by its stage. -/
def Stage.fate : Stage → Option Fate
  | .unserved _ => some .refused
  | .undialled _ => some .failed
  | .proxied _ => some .proxied
  | .closing _ fate | .ended _ fate => some fate
  | _ => none

/-- What an answer decides. -/
def decided : Event Op Op.Ans → Option Fate
  | ⟨.pick, none⟩ => some .refused
  | ⟨.connect _, failed⟩ => some (if failed.isSome then .failed else .proxied)
  | _ => none

/-- It came to this: no member to dial, a failed dial, or a connection to copy. -/
def Came (fate : Fate) (log : Log) : Prop :=
  ∃ event ∈ log, decided event = some fate

/-- The first decision stands. -/
theorem Stage.step_fate {stage after : Stage} {event : Event Op Op.Ans}
    (moves : stage.step vip event = some after) :
    after.fate = stage.fate.or (decided event) ∧ (stage.fate.isSome = true → decided event = none) := by
  obtain ⟨op, answer⟩ := event
  cases op with
  | inc name l =>
      cases stage with
      | arriving | unserved _ | undialled _ =>
          obtain ⟨rfl, _, rfl⟩ := count_eq_some moves
          exact ⟨rfl, fun _ => rfl⟩
      | _ => cases moves
  | active name l =>
      cases stage with
      | counted =>
          obtain ⟨rfl, _, rfl⟩ := count_eq_some moves
          exact ⟨rfl, fun _ => rfl⟩
      | _ => cases moves
  | drop live =>
      cases stage with
      | proxied _ | closing _ _ =>
          obtain ⟨rfl, ended⟩ := Option.ite_none_right_eq_some.mp moves
          cases ended
          exact ⟨rfl, fun _ => rfl⟩
      | _ => cases moves
  | pick =>
      cases stage with
      | choosing guard =>
          cases answer with
          | none =>
              cases moves
              exact ⟨rfl, fun some_ => nomatch some_⟩
          | some be =>
              cases moves
              exact ⟨rfl, fun some_ => nomatch some_⟩
      | _ => cases moves
  | connect addr =>
      cases stage with
      | chosen guard be =>
          obtain ⟨_, dialled⟩ := Option.ite_none_right_eq_some.mp moves
          cases dialled
          refine ⟨?_, fun some_ => nomatch some_⟩
          cases answer with
          | none => rfl
          | some error => rfl
      | _ => cases moves
  | _ =>
      cases stage with
      | proxied guard =>
          cases moves
          exact ⟨rfl, fun _ => rfl⟩
      | _ => cases moves

theorem came_iff {log : Log} {stage : Stage} (at_ : stageOf vip log = some stage) (fate : Fate) :
    Came fate log ↔ stage.fate = some fate := by
  induction log generalizing stage with
  | nil =>
      cases at_
      exact ⟨fun ⟨_, member, _⟩ => (List.not_mem_nil member).elim, fun none_ => nomatch none_⟩
  | cons event past ih =>
      obtain ⟨before, was, moves⟩ := Option.bind_eq_some_iff.mp at_
      obtain ⟨next, first⟩ := Stage.step_fate moves
      have before_iff := ih was
      simp only [Came, List.exists_mem_cons_iff] at before_iff ⊢
      rw [next, before_iff]
      cases came : before.fate with
      | none => simp
      | some earlier => simp [first (came ▸ rfl)]

/-- A connection stays up in a counter. -/
theorem Stage.incs_subset {stage after : Stage} {event : Event Op Op.Ans}
    (moves : stage.step vip event = some after) : stage.incs ⊆ after.incs := by
  obtain ⟨op, answer⟩ := event
  cases op with
  | inc name l =>
      rw [(step_inc moves).2.2]
      exact List.subset_cons_self _ _
  | _ =>
      rw [step_other rfl moves]
      exact List.Subset.refl _

/-- Whatever it did, it was counted first. -/
theorem connections_mem_incs {log : Log} {stage : Stage} (at_ : stageOf vip log = some stage) :
    connectionsTotal ∈ stage.incs ↔ log ≠ [] := by
  induction log generalizing stage with
  | nil =>
      cases at_
      exact ⟨fun member => (List.not_mem_nil member).elim, fun some_ => absurd rfl some_⟩
  | cons event past ih =>
      obtain ⟨before, was, moves⟩ := Option.bind_eq_some_iff.mp at_
      refine ⟨fun _ => List.cons_ne_nil _ _, fun _ => ?_⟩
      cases past with
      | nil =>
          cases was
          obtain ⟨op, answer⟩ := event
          cases op with
          | inc name l =>
              obtain ⟨_, _, rfl⟩ := Stage.count_eq_some moves
              exact List.mem_singleton_self _
          | _ => cases moves
      | cons earlier past =>
          exact Stage.incs_subset moves ((ih was).mpr (List.cons_ne_nil _ _))

theorem refused_mem_incs (stage : Stage) : noHealthyBackendTotal ∈ stage.incs ↔
    stage.fate = some .refused ∧ ∀ guard, stage ≠ .unserved guard := by
  have apart := noHealthyBackend_notMem
  have errors : noHealthyBackendTotal ∉ [upstreamConnectErrorsTotal, connectionsTotal] := by
    decide +kernel
  cases stage with
  | closing guard fate | ended guard fate =>
      cases fate <;> simp_all [Stage.incs, Stage.fate]
  | _ => simp_all [Stage.incs, Stage.fate]

theorem failed_mem_incs (stage : Stage) : upstreamConnectErrorsTotal ∈ stage.incs ↔
    stage.fate = some .failed ∧ ∀ guard, stage ≠ .undialled guard := by
  have apart := upstreamConnectErrors_notMem
  have refused : upstreamConnectErrorsTotal ∉ [noHealthyBackendTotal, connectionsTotal] := by
    decide +kernel
  cases stage with
  | closing guard fate | ended guard fate =>
      cases fate <;> simp_all [Stage.incs, Stage.fate]
  | _ => simp_all [Stage.incs, Stage.fate]

end

/-! ## The task follows the automaton -/

/-- Whatever the answer, the automaton goes on. -/
def Follows (vip : String) (op : Op) (past : Log) : Prop :=
  ∃ stage, stageOf vip past = some stage ∧
    ∀ answer, ∃ after, stage.step vip ⟨op, answer⟩ = some after

/-- At its end it is ended. -/
abbrev Post (vip : String) : Empty ⊕ Unit → Log → Prop :=
  LoopPost (fun _ _ => False) fun _ log => ∃ guard fate, stageOf vip log = some (.ended guard fate)

section

variable {vip : String} {past : Log}

/-- One operation, by what the automaton does on it. -/
theorem follows_call {op : Op} {next : op.Ans → Task} {stage : Stage}
    {after : op.Ans → Stage} (at_ : stageOf vip past = some stage)
    (moves : ∀ answer, stage.step vip ⟨op, answer⟩ = some (after answer))
    (rest : ∀ answer, stageOf vip (⟨op, answer⟩ :: past) = some (after answer) →
      Program.Keeps (Follows vip) (Post vip) (next answer) (⟨op, answer⟩ :: past)) :
    Program.Keeps (Follows vip) (Post vip) (.call op next) past := by
  refine ⟨⟨stage, at_, fun answer => ⟨after answer, moves answer⟩⟩, fun answer => ?_⟩
  exact rest answer ((stageOf_cons at_ _).trans (moves answer))

theorem count_self (expected : String) (after : Stage) :
    Stage.count vip expected expected (vipLabels vip) after = some after :=
  if_pos ⟨rfl, rfl⟩

theorem follows_close {guard : Metrics.ActiveGuard} {stage : Stage} {fate : Fate}
    (at_ : stageOf vip past = some stage)
    (drops : stage.step vip ⟨.drop guard, ()⟩ = some (.ended guard fate)) :
    Program.Keeps (Follows vip) (Post vip) (close guard) past :=
  follows_call at_ (fun _ => drops) fun _ ended => ⟨guard, fate, ended⟩

theorem follows_accepted : Program.Keeps (Follows vip) (Post vip) (accepted vip) [] := by
  refine follows_call rfl (fun _ => count_self ..) fun _ counted => ?_
  refine follows_call counted (fun _ => count_self ..) fun guard choosing => ?_
  refine ⟨⟨_, choosing, fun be => by cases be <;> exact ⟨_, rfl⟩⟩, fun be => ?_⟩
  cases be with
  | none =>
      have unserved := stageOf_cons choosing ⟨.pick, none⟩
      refine follows_call unserved (fun _ => count_self ..) fun _ closing => ?_
      exact follows_close closing (if_pos rfl)
  | some be =>
      have chosen := stageOf_cons choosing ⟨.pick, some be⟩
      refine follows_call chosen (fun _ => if_pos rfl) fun failed dialled => ?_
      cases failed with
      | none =>
          refine follows_call dialled (fun _ => rfl) fun _ client => ?_
          refine follows_call client (fun _ => rfl) fun _ backend => ?_
          refine follows_call backend (fun _ => rfl) fun _ copied => ?_
          exact follows_close copied (if_pos rfl)
      | some error =>
          refine follows_call dialled (fun _ => count_self ..) fun _ closing => ?_
          exact follows_close closing (if_pos rfl)

/-- Every operation can be answered. -/
instance (op : Op) : Nonempty op.Ans := by
  cases op with
  | active name l => exact ⟨⟨name, []⟩⟩
  | inc name l => exact ⟨()⟩
  | drop guard => exact ⟨()⟩
  | _ => exact ⟨none⟩

/-- A task about to go up in a counter. -/
def Waits (name : String) (program : Task) : Prop :=
  ∃ l next, program = .call (.inc name l) next

/-- How far a task is, and what it stands at. -/
structure At (vip : String) (program : Task) (log : Log) (stage : Stage) :
    Prop where
  follows : stageOf vip log = some stage
  ended : program = .done (.inr ()) ↔ ∃ guard fate, stage = .ended guard fate
  unserved : Waits noHealthyBackendTotal program ↔ ∃ guard, stage = .unserved guard
  undialled : Waits upstreamConnectErrorsTotal program ↔ ∃ guard, stage = .undialled guard

theorem Stage.counts_for {stage after : Stage} {name : String} {l : List (List Char × List Char)}
    {answer : Unit} (moves : stage.step vip ⟨.inc name l, answer⟩ = some after) :
    (name = noHealthyBackendTotal ↔ ∃ guard, stage = .unserved guard) ∧
      (name = upstreamConnectErrorsTotal ↔ ∃ guard, stage = .undialled guard) := by
  have refused := noHealthyBackend_notMem
  have failed := upstreamConnectErrors_notMem
  have apart : noHealthyBackendTotal ≠ upstreamConnectErrorsTotal := by decide +kernel
  cases stage with
  | arriving | unserved _ | undialled _ =>
      obtain ⟨rfl, _, _⟩ := count_eq_some moves
      simp_all [eq_comm]
  | _ => cases moves

theorem at_of_follows {op : Op} {next : op.Ans → Task} {log : Log}
    (follows : Follows vip op log) : ∃ stage, At vip (.call op next) log stage := by
  obtain ⟨stage, at_, goes⟩ := follows
  obtain ⟨answer⟩ : Nonempty op.Ans := inferInstance
  obtain ⟨after, moves⟩ := goes answer
  refine ⟨stage, at_, ⟨fun ends => (nomatch ends), ?_⟩, ⟨?_, ?_⟩, ⟨?_, ?_⟩⟩
  · rintro ⟨guard, fate, rfl⟩
    cases op <;> cases moves
  · rintro ⟨l, rest, same⟩
    cases same
    exact (Stage.counts_for moves).1.mp rfl
  · rintro ⟨guard, rfl⟩
    cases op with
    | inc name l => exact ⟨l, next, by rw [(Stage.counts_for moves).1.mpr ⟨guard, rfl⟩]⟩
    | _ => cases moves
  · rintro ⟨l, rest, same⟩
    cases same
    exact (Stage.counts_for moves).2.mp rfl
  · rintro ⟨guard, rfl⟩
    cases op with
    | inc name l => exact ⟨l, next, by rw [(Stage.counts_for moves).2.mpr ⟨guard, rfl⟩]⟩
    | _ => cases moves

theorem at_of_keeps {program : Task} {log : Log}
    (keeps : Program.Keeps (Follows vip) (Post vip) program log) :
    ∃ stage, At vip program log stage := by
  cases program with
  | call op next => exact at_of_follows keeps.1
  | done value =>
      have idle (name : String) : ¬ Waits name (.done value) := fun ⟨_, _, same⟩ => nomatch same
      cases value with
      | inl loops => exact loops.elim
      | inr ended =>
          obtain ⟨guard, fate, at_⟩ := keeps
          refine ⟨_, at_, ⟨fun _ => ⟨guard, fate, rfl⟩, fun _ => rfl⟩, ?_, ?_⟩
          · exact ⟨fun waits => (idle _ waits).elim, fun ⟨_, same⟩ => nomatch same⟩
          · exact ⟨fun waits => (idle _ waits).elim, fun ⟨_, same⟩ => nomatch same⟩

end

end StormLb.Balancer
