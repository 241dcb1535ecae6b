import Mathlib.Data.List.Dedup
import StormLb.Metrics.Keys
import StormLb.Metrics.ReadsBack
import StormLb.Router.FailClosed
import StormLb.Router.Labelled
import StormLb.Router.Listeners

/-!
# Clients cannot grow the metrics

Whatever clients and backends send, on however many connections at a time, the
series are those of the hostnames that were ever in the table.
-/

namespace StormLb.Router

open StormLb.Effects

/-! ## The law of a task -/

/-- What a task records is one of the router's series. -/
def TaskLabelled : TaskOp → History TaskOp TaskOp.Ans → Prop
  | .inl op, past => Labelled op (History.lefts past)
  | .inr (.active name labels), past => Series (Found (History.lefts past)) .gauge name labels
  | .inr _, _ => True

/-- Where a task stands. -/
abbrev TaskPost : Task ⊕ Unit → History TaskOp TaskOp.Ans → Prop :=
  LoopPost (fun task past => Hosted task.serving (History.lefts past)) fun _ _ => True

theorem taskLabelled_close (guard : Metrics.ActiveGuard) (past : History TaskOp TaskOp.Ans) :
    Program.Keeps TaskLabelled TaskPost (Task.close guard) past :=
  ⟨trivial, fun _ => trivial⟩

theorem Listener.label_mem (listener : Listener) : listener.label ∈ listeners := by
  cases listener with
  | http => exact List.mem_cons_self ..
  | https => exact List.mem_cons_of_mem _ (List.mem_cons_self ..)

theorem taskLabelled_spawn (listener : Listener) :
    Program.Keeps TaskLabelled TaskPost listener.spawn [] := by
  refine ⟨.connections listener.label_mem, fun _ => ⟨.connectionsActive listener.label_mem, ?_⟩⟩
  intro guard
  cases listener with
  | http => exact trivial
  | https =>
      refine ⟨trivial, fun shaken => ?_⟩
      cases shaken with
      | connected => exact trivial
      | failed error => exact ⟨.handshakeErrors, fun _ => taskLabelled_close guard _⟩
      | timedOut => exact ⟨.handshakeErrors, fun _ => taskLabelled_close guard _⟩

theorem taskLabelled_turn (front : Front) (listener : Listener) (task : Task)
    (past : History TaskOp TaskOp.Ans) (hosted : Hosted task.serving (History.lefts past)) :
    Program.Keeps TaskLabelled TaskPost (task.turn front listener) past := by
  have lawful (op : TaskOp) (before : History TaskOp TaskOp.Ans)
      (onLeft : Program.OnLeft Labelled op before) : TaskLabelled op before := by
    cases op with
    | inl op => exact onLeft
    | inr op => cases onLeft
  have turned := (labelled_turn front (listener = .https) task.serving hosted).left.relax lawful
  refine turned.bind fun ended after post => ?_
  cases ended with
  | inl serving => exact post
  | inr exit => exact taskLabelled_close task.guard after

/-! ## What the world knows -/

variable {f64 : Metrics.F64} {ι : Type} [DecidableEq ι] {listener : ι → Listener} {front : ι → Front}

/-- The hostname was in a table. -/
def World.Known (world : World f64) (host : String) : Prop :=
  ∃ table ∈ world.table :: world.earlier, host ∈ table

/-- The key of one of the router's series. -/
def Keyed (known : String → Prop) (ty : Metrics.Ty) (key : Metrics.Key) : Prop :=
  ∃ name labels, Series known ty name labels ∧ key = (name, Metrics.labels (World.chars labels))

/-- Every series of the registry is the router's. -/
structure World.Labelled (world : World f64) : Prop where
  counters : ∀ key ∈ world.metrics.counters, Keyed world.Known .counter key
  gauges : ∀ key ∈ world.metrics.gauges, Keyed world.Known .gauge key
  hists : ∀ key ∈ world.metrics.hists, Keyed world.Known .histogram key

/-- Every host that was found is known. -/
def FoundKnown (config : Config ι TaskOp TaskOp.Ans Task Unit (World f64)) : Prop :=
  ∀ i host, Found (History.lefts (config.histories i)) host → config.world.Known host

theorem Keyed.mono {known more : String → Prop} (grows : ∀ host, known host → more host)
    {ty : Metrics.Ty} {key : Metrics.Key} (keyed : Keyed known ty key) : Keyed more ty key := by
  obtain ⟨name, labels, series, same⟩ := keyed
  exact ⟨name, labels, series.mono grows, same⟩

/-- Nothing is forgotten in a drift. -/
theorem World.Known.drift {world after : World f64} {host : String} (known : world.Known host)
    (drifts : world.Drifts after) : after.Known host := by
  obtain ⟨table, member, inside⟩ := known
  cases drifts with
  | polled => exact ⟨table, List.mem_cons_of_mem _ member, inside⟩
  | passed => exact ⟨table, member, inside⟩

theorem World.Labelled.drift {world after : World f64} (labelled : world.Labelled)
    (drifts : world.Drifts after) : after.Labelled := by
  have grows (host : String) (known : world.Known host) : after.Known host := known.drift drifts
  have same : after.metrics = world.metrics := by cases drifts <;> rfl
  constructor
  · rw [same]
    exact fun key member => (labelled.counters key member).mono grows
  · rw [same]
    exact fun key member => (labelled.gauges key member).mono grows
  · rw [same]
    exact fun key member => (labelled.hists key member).mono grows

/-! ## One operation -/

/-- Serving leaves the tables as they are. -/
theorem World.serve_known {world after : World f64} {op : TaskOp} {answer : op.Ans}
    (served : world.serve op answer = some after) : after.Known = world.Known := by
  cases op with
  | inl op =>
      cases op with
      | lookup host =>
          simp only [World.serve, World.serveConn] at served
          split_ifs at served
          cases served
          rfl
      | _ =>
          cases served
          rfl
  | inr op =>
      cases op with
      | active name labels =>
          simp only [World.serve, World.serveListener] at served
          split_ifs at served
          cases served
          rfl
      | _ =>
          cases served
          rfl

/-- A route that is found is one of the table. -/
theorem World.known_of_lookup {world after : World f64} {host : String} {backend : Backend}
    (served : world.serve (.inl (.lookup host)) (some backend) = some after) :
    world.Known host := by
  simp only [World.serve, World.serveConn] at served
  split_ifs at served with found
  refine ⟨world.table, List.mem_cons_self .., ?_⟩
  exact Std.ExtTreeMap.mem_iff_isSome_getElem?.mpr (by rw [← found]; rfl)

/-- A lawful operation adds no series but the router's. -/
theorem World.Labelled.serve {world after : World f64} {op : TaskOp} {answer : op.Ans}
    {past : History TaskOp TaskOp.Ans} (labelled : world.Labelled) (lawful : TaskLabelled op past)
    (known : ∀ host, Found (History.lefts past) host → world.Known host)
    (served : world.serve op answer = some after) : after.Labelled := by
  have keyed {ty : Metrics.Ty} {name : String} {labels : List (String × String)}
      (series : Series (Found (History.lefts past)) ty name labels) :
      Keyed world.Known ty (name, Metrics.labels (World.chars labels)) :=
    ⟨name, labels, series.mono known, rfl⟩
  cases op with
  | inl op =>
      cases op with
      | lookup host =>
          simp only [World.serve, World.serveConn] at served
          split_ifs at served
          cases served
          exact labelled
      | inc name labels =>
          cases served
          refine { labelled with counters := fun key member => ?_ }
          obtain rfl | older := Metrics.mem_inc member
          · exact keyed lawful
          · exact labelled.counters key older
      | observe name labels =>
          cases served
          refine { labelled with hists := fun key member => ?_ }
          obtain rfl | older := Metrics.mem_observe member
          · exact keyed lawful
          · exact labelled.hists key older
      | _ =>
          cases served
          exact labelled
  | inr op =>
      cases op with
      | active name labels =>
          simp only [World.serve, World.serveListener] at served
          split_ifs at served
          cases served
          refine { labelled with gauges := fun key member => ?_ }
          obtain rfl | older := Metrics.mem_active member
          · exact keyed lawful
          · exact labelled.gauges key older
      | drop guard =>
          cases served
          exact { labelled with gauges := fun key member => labelled.gauges key (Metrics.mem_drop member) }
      | accept =>
          cases served
          exact labelled

/-! ## Every run -/

/-- What is found after one more event was found before, or is what the event looked up. -/
theorem found_cons {event : Event TaskOp TaskOp.Ans} {past : History TaskOp TaskOp.Ans}
    {host : String} (found : Found (History.lefts (event :: past)) host) :
    Found (History.lefts past) host ∨ ∃ backend, event = ⟨.inl (.lookup host), some backend⟩ := by
  obtain ⟨backend, looked⟩ := found
  obtain ⟨op | op, answer⟩ := event
  · rcases List.mem_cons.mp looked with same | older
    · cases same
      exact .inr ⟨backend, rfl⟩
    · exact .inl ⟨backend, older⟩
  · exact .inl ⟨backend, looked⟩

/-- What holds throughout: the registry is labelled, and the hosts that were found are known. -/
structure Bounded (config : Config ι TaskOp TaskOp.Ans Task Unit (World f64)) : Prop where
  labelled : config.world.Labelled
  known : FoundKnown config

omit [DecidableEq ι] in
theorem bounded_initial (table : Table) :
    Bounded ((connections f64 listener front).initial (World.start table)) where
  labelled := by
    constructor
    · exact fun key member => absurd member Std.ExtTreeMap.not_mem_empty
    · exact fun key member => absurd member Std.ExtTreeMap.not_mem_empty
    · exact fun key member => absurd member Std.ExtTreeMap.not_mem_empty
  known := fun i host ⟨backend, looked⟩ => absurd looked List.not_mem_nil

/-- Every operation a task is about to perform is lawful. -/
theorem lawful_of_reaches {table : Table} {config : Config ι TaskOp TaskOp.Ans Task Unit (World f64)}
    (reached : (connections f64 listener front).Reaches Threads.anySchedule
      ((connections f64 listener front).initial (World.start table)) config)
    {i : ι} {op : TaskOp} {next : op.Ans → TaskProg (Task ⊕ Unit)}
    (waiting : config.threads i = .call op next) : TaskLabelled op (config.histories i) := by
  have keeps := (reached.solo i).keeps (taskLabelled_spawn (listener i)) fun task past hosted =>
    taskLabelled_turn (front i) (listener i) task past hosted
  rw [waiting] at keeps
  exact keeps.1

theorem bounded_of_reaches {table : Table}
    {config : Config ι TaskOp TaskOp.Ans Task Unit (World f64)}
    (reached : (connections f64 listener front).Reaches Threads.anySchedule
      ((connections f64 listener front).initial (World.start table)) config) :
    Bounded config := by
  refine reached.invariant (bounded_initial table) ?_
  intro who config after before bounded _ stepped
  cases stepped with
  | @call _ i op next world answer waiting served =>
      have lawful := lawful_of_reaches before waiting
      have same := World.serve_known served
      refine ⟨bounded.labelled.serve lawful (bounded.known i) served, fun j host found => ?_⟩
      change world.Known host
      rw [same]
      by_cases here : j = i
      · subst here
        rw [Config.advance_histories_self] at found
        obtain older | ⟨backend, looked⟩ := found_cons found
        · exact bounded.known j host older
        · cases looked
          exact World.known_of_lookup served
      · rw [Config.advance_histories_of_ne _ here] at found
        exact bounded.known j host found
  | turn looped => exact ⟨bounded.labelled, bounded.known⟩
  | drift moved =>
      exact ⟨bounded.labelled.drift moved, fun i host found => (bounded.known i host found).drift moved⟩

/-! ## How many series there are -/

/-- All the series the router has for these hosts. -/
def seriesOf (hosts : List String) : Metrics.Ty → List (String × List (String × String))
  | .counter =>
      (("unrouted" :: hosts).flatMap fun host => codes.map fun code =>
        ("stormlb_router_requests_total", [("host", host), ("code", code)])) ++
      (hosts.flatMap fun host => kinds.map fun kind =>
        ("stormlb_router_upstream_errors_total", [("host", host), ("kind", kind)])) ++
      ("stormlb_router_tls_handshake_errors_total", []) ::
      listeners.map fun listener => ("stormlb_router_connections_total", [("listener", listener)])
  | .gauge =>
      listeners.map fun listener => ("stormlb_router_connections_active", [("listener", listener)])
  | .histogram =>
      hosts.map fun host => ("stormlb_router_request_duration_seconds", [("host", host)])

theorem Series.mem_seriesOf {hosts : List String} {ty : Metrics.Ty} {name : String}
    {labels : List (String × String)} (series : Series (· ∈ hosts) ty name labels) :
    (name, labels) ∈ seriesOf hosts ty := by
  cases series with
  | @requests host code hosted coded =>
      simp only [seriesOf, List.mem_append, List.mem_flatMap, List.mem_map]
      exact .inl (.inl ⟨host, List.mem_cons.mpr hosted, code, coded, rfl⟩)
  | @upstreamErrors host kind hosted kinded =>
      simp only [seriesOf, List.mem_append, List.mem_flatMap, List.mem_map]
      exact .inl (.inr ⟨host, hosted, kind, kinded, rfl⟩)
  | handshakeErrors => exact List.mem_append_right _ (List.mem_cons_self ..)
  | connections listens =>
      exact List.mem_append_right _ (List.mem_cons_of_mem _ (List.mem_map_of_mem listens))
  | connectionsActive listens => exact List.mem_map_of_mem listens
  | duration hosted => exact List.mem_map_of_mem hosted

theorem codes_length : codes.length = 1002 := by
  have ten : digits.length = 10 := rfl
  simp only [codes, threeDigits, List.length_cons, List.length_flatMap, List.length_map, ten,
    List.map_const', List.sum_replicate_nat]

/-- 1002 codes and three kinds for each host, and seven series without a host. -/
theorem seriesOf_length (hosts : List String) :
    (seriesOf hosts .counter).length + (seriesOf hosts .gauge).length +
      (seriesOf hosts .histogram).length = 1006 * hosts.length + 1007 := by
  have perHost (count : Nat) : (hosts.map fun _ => count).sum = hosts.length * count := by
    simp
  simp only [seriesOf, List.length_append, List.length_flatMap, List.length_map, List.map_cons,
    List.sum_cons, List.length_cons, codes_length, perHost]
  simp only [kinds, listeners, List.length_cons, List.length_nil]
  omega

/-- The hostnames of all tables so far. -/
def World.hostnames (world : World f64) : List String :=
  ((world.table :: world.earlier).flatMap Std.ExtTreeMap.keys).dedup

theorem World.mem_hostnames {world : World f64} {host : String} :
    host ∈ world.hostnames ↔ world.Known host := by
  simp only [World.hostnames, List.mem_dedup, List.mem_flatMap, Std.ExtTreeMap.mem_keys,
    World.Known]

/-- The keys of a type of series, and what bounds their number. -/
theorem size_le_seriesOf {Value : Type} {series : Metrics.Series Value} {world : World f64}
    {ty : Metrics.Ty} (keyed : ∀ key ∈ series, Keyed world.Known ty key) :
    series.size ≤ (seriesOf world.hostnames ty).length := by
  have among : ∀ key ∈ series, key ∈ (seriesOf world.hostnames ty).map fun series =>
      (series.1, Metrics.labels (World.chars series.2)) := by
    intro key member
    obtain ⟨name, labels, recorded, rfl⟩ := keyed key member
    have recorded := recorded.mono fun host known => World.mem_hostnames.mpr known
    exact List.mem_map.mpr ⟨_, recorded.mem_seriesOf, rfl⟩
  have few := Metrics.size_le_length among
  rwa [List.length_map] at few

/-- The registry has the router's series only, and no more than the hostnames allow. -/
structure CannotGrow (world : World f64) : Prop where
  labelled : world.Labelled
  few : world.metrics.counters.size + world.metrics.gauges.size + world.metrics.hists.size ≤
    1006 * world.hostnames.length + 1007

/--
Over all connections, whatever they are sent and whenever, and all tables that
replace one another meanwhile, clients cannot grow the series.
-/
theorem cannotGrow_of_reaches {table : Table}
    {config : Config ι TaskOp TaskOp.Ans Task Unit (World f64)}
    (reached : (connections f64 listener front).Reaches Threads.anySchedule
      ((connections f64 listener front).initial (World.start table)) config) :
    CannotGrow config.world := by
  obtain ⟨labelled, _⟩ := bounded_of_reaches reached
  refine ⟨labelled, ?_⟩
  have counters := size_le_seriesOf labelled.counters
  have gauges := size_le_seriesOf labelled.gauges
  have hists := size_le_seriesOf labelled.hists
  rw [← seriesOf_length config.world.hostnames]
  omega

/-- The table is asked; the rest is a request for the metrics and a backend that connects. -/
def askTable (_ : Bool) (world : World Metrics.billionths) : (op : TaskOp) → op.Ans
  | .inl (.lookup host) => world.table[host]?
  | .inl .choose => .down
  | .inl op => metricsRequest [] op
  | .inr (.active name labels) => (world.metrics.active name (World.chars labels)).2
  | .inr (.drop _) => ()
  | .inr .accept => .timedOut

/-- A plain connection that is forwarded, and one whose handshake times out. -/
def twoConnections : Config Bool TaskOp TaskOp.Ans Task Unit (World Metrics.billionths) :=
  let system := connections Metrics.billionths
    (fun secured : Bool => if secured then .https else .http) fun _ => plainFront
  system.playSchedule Threads.anySchedule askTable
    (system.initial (.start ((∅ : Table).insert "metrics.test" metricsBackend)))
    ((List.replicate 14 false) ++ (List.replicate 5 true))

theorem cannotGrow_twoConnections :
    CannotGrow twoConnections.world ∧ twoConnections.world.metrics.counters.size = 4 := by
  refine ⟨cannotGrow_of_reaches (Threads.Reaches.playSchedule askTable _ .start), ?_⟩
  decide +kernel

end StormLb.Router
