import StormLb.Metrics.Guards
import StormLb.Router.Cardinality

/-!
# Open connections

The gauge of a listener counts the connections it has open, at every moment of
every interleaving: each task makes one guard and drops it on every way out.
-/

namespace StormLb.Router

open StormLb.Effects

def connectionsActive : String :=
  "stormlb_router_connections_active"

/-- The series of a listener. -/
def activeKey (listener : Listener) : Metrics.Key :=
  (connectionsActive, Metrics.labels (World.chars [("listener", listener.label)]))

theorem activeKey_inj (listener other : Listener) :
    activeKey listener = activeKey other ↔ listener = other := by
  cases listener <;> cases other <;> decide +kernel

/-- What an operation does with a guard. -/
def handling : Event TaskOp TaskOp.Ans → Option Metrics.Handling
  | ⟨.inr (.active name l), guard⟩ => some (.makes name (World.chars l) guard)
  | ⟨.inr (.drop guard), _⟩ => some (.drops guard)
  | _ => none

abbrev TaskLog := History TaskOp TaskOp.Ans

/-! ## A task and its guard -/

/-- The guard of the listener, held. -/
def Holds (listener : Listener) (guard : Metrics.ActiveGuard) (past : TaskLog) : Prop :=
  Metrics.heldOf handling past = some (.holds (activeKey listener) guard)

/-- No guard was dropped yet, and whatever the answer, it is handled as it should be. -/
def Handles (listener : Listener) (op : TaskOp) (past : TaskLog) : Prop :=
  (Metrics.heldOf handling past = some .nothing ∨ ∃ guard, Holds listener guard past) ∧
    ∀ answer, (Metrics.heldOf handling (⟨op, answer⟩ :: past)).isSome = true

/-- Between two turns it is held, and at the end dropped. -/
abbrev HoldsPost (listener : Listener) : Task ⊕ Unit → TaskLog → Prop :=
  LoopPost (fun task => Holds listener task.guard) fun _ past =>
    ∃ guard, Metrics.heldOf handling past = some (.dropped (activeKey listener) guard)

section

variable {listener : Listener} {guard : Metrics.ActiveGuard} {past : TaskLog}

/-- An operation that is not about guards. -/
theorem Holds.aside (holds : Holds listener guard past) {event : Event TaskOp TaskOp.Ans}
    (other : handling event = none) : Holds listener guard (event :: past) := by
  rw [Holds, Metrics.heldOf_of_none other]
  exact holds

theorem handles_aside {op : TaskOp} (holds : Holds listener guard past)
    (other : ∀ answer, handling ⟨op, answer⟩ = none) : Handles listener op past := by
  refine ⟨.inr ⟨guard, holds⟩, fun answer => ?_⟩
  have later : Metrics.heldOf handling (⟨op, answer⟩ :: past) = _ := holds.aside (other answer)
  rw [later]
  rfl

theorem handles_close (holds : Holds listener guard past) :
    Program.Keeps (Handles listener) (HoldsPost listener) (Task.close guard) past := by
  have dropped : Metrics.heldOf handling (⟨.inr (.drop guard), ()⟩ :: past) =
      some (.dropped (activeKey listener) guard) := by
    rw [Metrics.heldOf_of_some rfl, show Metrics.heldOf handling past = _ from holds]
    exact if_pos rfl
  exact ⟨⟨.inr ⟨guard, holds⟩, fun _ => dropped ▸ rfl⟩, fun _ => ⟨guard, dropped⟩⟩

/-- What `serve_conn` does leaves the guard where it is. -/
theorem handles_left {α : Type} (program : Program Op Op.Ans α)
    (holds : Holds listener guard past) :
    Program.Keeps (Handles listener) (fun _ => Holds listener guard) program.left past := by
  induction program generalizing past with
  | done value => exact holds
  | call op next ih =>
      exact ⟨handles_aside holds fun _ => rfl, fun answer => ih answer (holds.aside rfl)⟩

theorem handles_spawn (listener : Listener) :
    Program.Keeps (Handles listener) (HoldsPost listener) listener.spawn [] := by
  refine ⟨⟨.inl rfl, fun _ => rfl⟩, fun counted => ⟨⟨.inl rfl, fun _ => rfl⟩, fun guard => ?_⟩⟩
  have opened : Holds listener guard
      [⟨.inr (.active "stormlb_router_connections_active" [("listener", listener.label)]), guard⟩,
        ⟨.inl (.inc "stormlb_router_connections_total" [("listener", listener.label)]), counted⟩] :=
    rfl
  cases listener with
  | http => exact opened
  | https =>
      refine ⟨handles_aside opened fun _ => rfl, fun shaken => ?_⟩
      cases shaken with
      | connected => exact opened.aside rfl
      | failed error =>
          refine ⟨handles_aside (opened.aside rfl) fun _ => rfl, fun _ => ?_⟩
          exact handles_close ((opened.aside rfl).aside rfl)
      | timedOut =>
          refine ⟨handles_aside (opened.aside rfl) fun _ => rfl, fun _ => ?_⟩
          exact handles_close ((opened.aside rfl).aside rfl)

theorem handles_turn (front : Front) {task : Task} (holds : Holds listener task.guard past) :
    Program.Keeps (Handles listener) (HoldsPost listener) (task.turn front listener) past := by
  refine (handles_left _ holds).bind fun ended log holds => ?_
  cases ended with
  | inl serving => exact holds
  | inr value => exact handles_close holds

/-- Where a task is with its guard. -/
theorem held_of_keeps {program : TaskProg (Task ⊕ Unit)}
    (keeps : Program.Keeps (Handles listener) (HoldsPost listener) program past) :
    (∃ held, Metrics.heldOf handling past = some held ∧
      (held = .nothing ∨ ∃ guard, held = .holds (activeKey listener) guard)) ∧
        program ≠ .done (.inr ()) ∨
    (∃ guard, Metrics.heldOf handling past = some (.dropped (activeKey listener) guard)) ∧
      program = .done (.inr ()) := by
  cases program with
  | call op next =>
      refine .inl ⟨?_, nofun⟩
      rcases keeps.1.1 with none_ | ⟨guard, holds⟩
      · exact ⟨_, none_, .inl rfl⟩
      · exact ⟨_, holds, .inr ⟨guard, rfl⟩⟩
  | done value =>
      cases value with
      | inl task => exact .inl ⟨⟨_, keeps, .inr ⟨task.guard, rfl⟩⟩, nofun⟩
      | inr ended => exact .inr ⟨keeps, rfl⟩

end

/-! ## Over every interleaving -/

section

variable (f64 : Metrics.F64) {ι : Type} [DecidableEq ι] (listener : ι → Listener)
  (front : ι → Front)

def guards : Metrics.Guards (connections f64 listener front) f64 where
  metrics := World.metrics
  handling := handling
  ours key := key.1 = connectionsActive
  makes {i world op after name l guard} answer served acts := by
    match op with
    | .inl op => cases acts
    | .inr .accept => cases acts
    | .inr (.drop _) => cases acts
    | .inr (.active name l) =>
        cases acts
        obtain ⟨live, stays⟩ := Option.ite_none_right_eq_some.mp served
        cases stays
        exact ⟨live, rfl⟩
  drops {i world op after guard} answer served acts := by
    match op with
    | .inl op => cases acts
    | .inr .accept => cases acts
    | .inr (.active _ _) => cases acts
    | .inr (.drop guard) =>
        cases acts
        cases served
        rfl
  aside {i world op after} answer served acts := by
    match op with
    | .inr (.active _ _) => cases acts
    | .inr (.drop _) => cases acts
    | .inr .accept =>
        cases served
        exact ⟨fun _ _ => rfl, fun _ there => there⟩
    | .inl op =>
        cases op with
        | lookup host =>
            obtain ⟨_, stays⟩ := Option.ite_none_right_eq_some.mp served
            cases stays
            exact ⟨fun _ _ => rfl, fun _ there => there⟩
        | _ =>
            cases served
            exact ⟨fun _ _ => rfl, fun _ there => there⟩
  drifts drifts := by
    cases drifts with
    | polled table => exact ⟨fun _ _ => rfl, fun _ there => there⟩
    | passed elapsed => exact ⟨fun _ _ => rfl, fun _ there => there⟩

variable {f64 listener front} {table : Table}
  {config : Config ι TaskOp TaskOp.Ans Task Unit (World f64)}

/-- The task registered its connection, and has not ended. -/
def Open (config : Config ι TaskOp TaskOp.Ans Task Unit (World f64)) (i : ι) : Prop :=
  (∃ event ∈ config.histories i, ∃ name l guard, handling event = some (.makes name l guard)) ∧
    config.threads i ≠ .done (.inr ())

theorem keeps_of_reaches
    (reached : (connections f64 listener front).Reaches Threads.anySchedule
      ((connections f64 listener front).initial (World.start table)) config) (i : ι) :
    Program.Keeps (Handles (listener i)) (HoldsPost (listener i)) (config.threads i)
      (config.histories i) :=
  (reached.solo i).keeps (handles_spawn _) fun _ _ => handles_turn (front i)

/--
Whatever clients and backends do on however many connections, a listener's
gauge is the number of its connections that are open.
-/
theorem active_counts_open
    (reached : (connections f64 listener front).Reaches Threads.anySchedule
      ((connections f64 listener front).initial (World.start table)) config)
    (at_ : Listener) :
    ∃ live : Finset ι, (∀ i, i ∈ live ↔ listener i = at_ ∧ Open config i) ∧
      config.world.metrics.gauges[activeKey at_]?.getD 0 = Int64.ofNat live.card := by
  have handled (config : Config ι TaskOp TaskOp.Ans Task Unit (World f64))
      (reached : (connections f64 listener front).Reaches Threads.anySchedule
        ((connections f64 listener front).initial (World.start table)) config) (i : ι) :
      (Metrics.heldOf handling (config.histories i)).isSome = true := by
    rcases held_of_keeps (keeps_of_reaches reached i) with ⟨⟨held, is, _⟩, _⟩ | ⟨⟨guard, is⟩, _⟩
    · exact is ▸ rfl
    · exact is ▸ rfl
  have nothing : (World.start table : World f64).metrics.gauge (activeKey at_) = 0 :=
    Metrics.gauge_default _
  obtain ⟨live, members, card⟩ := (guards f64 listener front).counts reached handled
    (activeKey at_) rfl nothing
  refine ⟨live, fun i => (members i).trans ?_, card⟩
  change (∃ guard, Metrics.heldOf handling (config.histories i) = _) ↔ _
  rcases held_of_keeps (keeps_of_reaches reached i) with
    ⟨⟨held, is, where_⟩, runs⟩ | ⟨⟨guard, is⟩, ended⟩
  · rw [Open, ← Metrics.made_iff is, is, and_iff_left runs]
    rcases where_ with rfl | ⟨guard, rfl⟩
    · simp [Metrics.Held.made]
    · simp [Metrics.Held.made, activeKey_inj]
  · rw [Open, is]
    constructor
    · rintro ⟨_, holds⟩
      cases holds
    · rintro ⟨_, _, runs⟩
      exact absurd ended runs

end

theorem active_counts_open_twoConnections :
    (∀ at_, ∃ live : Finset Bool,
      (∀ i, i ∈ live ↔ (if i then Listener.https else .http) = at_ ∧ Open twoConnections i) ∧
        twoConnections.world.metrics.gauges[activeKey at_]?.getD 0 = Int64.ofNat live.card) ∧
      twoConnections.world.metrics.gauges[activeKey .https]? = some 0 := by
  refine ⟨fun at_ => ?_, by decide +kernel⟩
  exact active_counts_open (Threads.Reaches.playSchedule askTable _ .start) at_

end StormLb.Router
