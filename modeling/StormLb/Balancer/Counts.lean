import StormLb.Balancer.Stages
import StormLb.Effects.Ledger
import StormLb.Metrics.ReadsBack
import StormLb.Metrics.Words

/-!
# What the balancer's metrics count

Over every interleaving of the connections of all VIPs, each series of a VIP
counts the connections it is named after: a ledger that all tasks write into.
-/

namespace StormLb.Balancer

open StormLb.Effects

/-! ## The series of a VIP -/

def vipSet (vip : String) : Metrics.LabelSet where
  pairs := vipLabels vip
  named pair member := by
    rw [List.mem_singleton.mp member]
    change Exposition.isLabelName "vip".toList = true
    decide +kernel
  distinct := List.nodup_singleton _
  reserved := by
    change ['l', 'e'] ∉ ["vip".toList]
    decide +kernel

theorem vipKey_inj {name name' vip vip' : String} :
    vipKey name vip = vipKey name' vip' ↔ name = name' ∧ vip = vip' := by
  have labels : Metrics.labels (vipLabels vip) = Metrics.labels (vipLabels vip') ↔
      vipLabels vip = vipLabels vip' := @Metrics.LabelSet.text_inj (vipSet vip) (vipSet vip')
  rw [vipKey, vipKey, Prod.mk.injEq, labels]
  simp [vipLabels, String.toList_inj]

/-! ## The shares of an operation -/

/-- What an operation adds to a counter. -/
def counterShare (key : Metrics.Key) : Event Op Op.Ans → BitVec 64
  | ⟨.inc name l, _⟩ => if (name, Metrics.labels l) = key then 1 else 0
  | _ => 0

/-- What a connection has added to a counter by its stage. -/
theorem total_counterShare {vip : String} {log : Log} {stage : Stage}
    (at_ : stageOf vip log = some stage) (name v : String) :
    History.total (counterShare (vipKey name v)) log =
      if vip = v ∧ name ∈ stage.incs then 1 else 0 := by
  induction log generalizing stage with
  | nil =>
      cases at_
      exact (if_neg fun both => List.not_mem_nil both.2).symm
  | cons event past ih =>
      obtain ⟨before, was, moves⟩ := Option.bind_eq_some_iff.mp at_
      rw [History.total_cons, ih was]
      obtain ⟨op, answer⟩ := event
      cases op with
      | inc up l =>
          obtain ⟨rfl, fresh, incs⟩ := Stage.step_inc moves
          rw [incs, counterShare]
          change (if vipKey up vip = vipKey name v then (1 : BitVec 64) else 0) + _ = _
          simp only [vipKey_inj, List.mem_cons]
          by_cases same : up = name
          · subst same
            simp [fresh]
          · simp [same, Ne.symm same]
      | _ =>
          rw [Stage.step_other rfl moves]
          exact BitVec.zero_add _

section

variable {f64 : Metrics.F64} {κ : Type} [DecidableEq κ] {listener : Listener κ}
  {world after : World f64 κ}

/-- Every operation adds its share to a counter. -/
theorem World.counter_serve {op : Op} {answer : op.Ans}
    (served : world.serve listener op answer = some after) (key : Metrics.Key) :
    after.metrics.counter key = world.metrics.counter key + counterShare key ⟨op, answer⟩ := by
  cases op with
  | inc name l =>
      cases served
      exact Metrics.counter_inc ..
  | active name l =>
      rw [(World.serve_active served).2]
      exact (BitVec.add_zero _).symm
  | pick =>
      rw [(World.serve_pick served).2]
      exact (BitVec.add_zero _).symm
  | _ =>
      cases served
      exact (BitVec.add_zero _).symm

/-- What else happens leaves the series of the tasks alone. -/
theorem World.Drifts.counter_eq (drifts : World.Drifts world after) {key : Metrics.Key}
    (ours : key.1 ∈ World.series) : after.metrics.counter key = world.metrics.counter key := by
  cases drifts with
  | probed k id healthy => rfl
  | members k addrs => rfl
  | recorded r other => exact Metrics.counter_record _ _ fun same => other (same ▸ ours)

/-- The gauges of the tasks are moved by their guards only. -/
theorem World.Drifts.aside (drifts : World.Drifts world after) :
    Metrics.Aside (fun key => key.1 ∈ World.series) world.metrics after.metrics := by
  cases drifts with
  | probed k id healthy => exact ⟨fun _ _ => rfl, fun _ there => there⟩
  | members k addrs => exact ⟨fun _ _ => rfl, fun _ there => there⟩
  | recorded r other =>
      refine ⟨fun key ours => ?_, fun key there => Metrics.present_record _ r there⟩
      exact Metrics.gauge_record _ _ fun same => other (same ▸ ours)

end

def guards (f64 : Metrics.F64) {ι κ : Type} [DecidableEq ι] [DecidableEq κ]
    (listener : ι → Listener κ) : Metrics.Guards (connections f64 listener) f64 where
  metrics := World.metrics
  handling := handling
  ours key := key.1 ∈ World.series
  makes {i world op after name l guard} answer served acts := by
    cases op with
    | active name l =>
        cases acts
        change world.serve (listener i) (.active name l) guard = some after at served
        obtain ⟨made, rfl⟩ := World.serve_active served
        exact ⟨made, rfl⟩
    | _ => cases acts
  drops {i world op after guard} answer served acts := by
    cases op with
    | drop guard =>
        cases acts
        cases served
        rfl
    | _ => cases acts
  aside {i world op after} answer served acts := by
    cases op with
    | active name l => cases acts
    | drop guard => cases acts
    | pick =>
        change world.serve (listener i) .pick answer = some after at served
        rw [(World.serve_pick served).2]
        exact ⟨fun _ _ => rfl, fun _ there => there⟩
    | _ =>
        cases served
        exact ⟨fun _ _ => rfl, fun _ there => there⟩
  drifts := World.Drifts.aside

/-! ## Over every interleaving -/

/-- The process starts without metrics. -/
def World.start {f64 : Metrics.F64} {κ : Type} (pools : κ → Pool) : World f64 κ where
  metrics := .default f64
  pools := pools

section

variable {f64 : Metrics.F64} {ι κ : Type} [DecidableEq ι] [DecidableEq κ]
  {listener : ι → Listener κ} {pools : κ → Pool}
  {config : Config ι Op Op.Ans Empty Unit (World f64 κ)}

theorem at_of_reaches
    (reached : (connections f64 listener).Reaches Threads.anySchedule
      ((connections f64 listener).initial (.start pools)) config) (i : ι) :
    ∃ stage, At (listener i).vip (config.threads i) (config.histories i) stage :=
  at_of_keeps ((reached.solo i).keeps follows_accepted fun loops => loops.elim)

/-- A counter of a VIP, by who went up in it. -/
theorem counter_counts
    (reached : (connections f64 listener).Reaches Threads.anySchedule
      ((connections f64 listener).initial (.start pools)) config)
    {name : String} (ours : name ∈ World.series) (v : String) {counted : ι → Prop}
    (iff : ∀ i stage, At (listener i).vip (config.threads i) (config.histories i) stage →
      (counted i ↔ (listener i).vip = v ∧ name ∈ stage.incs)) :
    ∃ those : Finset ι, (∀ i, i ∈ those ↔ counted i) ∧
      config.world.metrics.counters[vipKey name v]?.getD 0 = UInt64.ofNat those.card := by
  have total (i : ι) : (counted i → History.total (counterShare (vipKey name v))
        (config.histories i) = 1) ∧
      (¬ counted i → History.total (counterShare (vipKey name v)) (config.histories i) = 0) := by
    obtain ⟨stage, at_⟩ := at_of_reaches reached i
    rw [total_counterShare at_.follows, iff i stage at_]
    exact ⟨fun holds => if_pos holds, fun fails => if_neg fails⟩
  have idle (i : ι) (silent : config.histories i = []) : ¬ counted i := by
    intro holds
    have one := (total i).1 holds
    rw [silent, History.total_nil] at one
    exact absurd one (by decide)
  obtain ⟨those, members, card⟩ := reached.counts
    (fun world => world.metrics.counter (vipKey name v)) (fun _ => counterShare (vipKey name v)) _
    (Metrics.counter_default _)
    (fun config i op next answer after _ _ served => World.counter_serve served _)
    (fun before after drifts => World.Drifts.counter_eq drifts ours)
    idle (fun i => (total i).1) (fun i => (total i).2)
  refine ⟨those, members, UInt64.toBitVec_inj.mp (card.trans ?_)⟩
  exact (UInt64.toBitVec_ofNat _).symm

theorem connectionsActive_mem : connectionsActive ∈ World.series := by
  decide +kernel

/-- The task registered its connection, and has not ended. -/
def Open (config : Config ι Op Op.Ans Empty Unit (World f64 κ)) (i : ι) : Prop :=
  (∃ name l guard, ⟨.active name l, guard⟩ ∈ config.histories i) ∧
    config.threads i ≠ .done (.inr ())

/-- The series of a VIP, each with the connections that it counts. -/
structure VipCounts (listener : ι → Listener κ)
    (config : Config ι Op Op.Ans Empty Unit (World f64 κ)) (v : String) : Prop where
  total : ∃ accepted : Finset ι,
    (∀ i, i ∈ accepted ↔ (listener i).vip = v ∧ config.histories i ≠ []) ∧
      config.world.metrics.counters[vipKey connectionsTotal v]?.getD 0 =
        UInt64.ofNat accepted.card
  active : ∃ live : Finset ι, (∀ i, i ∈ live ↔ (listener i).vip = v ∧ Open config i) ∧
    config.world.metrics.gauges[vipKey connectionsActive v]?.getD 0 = Int64.ofNat live.card
  /-- Without a healthy member, but for those that are about to count it. -/
  refused : ∃ refused : Finset ι,
    (∀ i, i ∈ refused ↔ (listener i).vip = v ∧ Came .refused (config.histories i) ∧
      ¬ Waits noHealthyBackendTotal (config.threads i)) ∧
      config.world.metrics.counters[vipKey noHealthyBackendTotal v]?.getD 0 =
        UInt64.ofNat refused.card
  /-- With a dial that failed, but for those that are about to count it. -/
  failed : ∃ failed : Finset ι,
    (∀ i, i ∈ failed ↔ (listener i).vip = v ∧ Came .failed (config.histories i) ∧
      ¬ Waits upstreamConnectErrorsTotal (config.threads i)) ∧
      config.world.metrics.counters[vipKey upstreamConnectErrorsTotal v]?.getD 0 =
        UInt64.ofNat failed.card
  /-- A connection that ended came to one thing. -/
  ends : ∀ i, config.threads i = .done (.inr ()) → ∃! fate, Came fate (config.histories i)

/-- A guard that is held is of the VIP's series. -/
theorem Stage.vip_of_held {vip v : String} {guard : Metrics.ActiveGuard} (stage : Stage)
    (holds : stage.held vip = .holds (vipKey connectionsActive v) guard) : vip = v := by
  cases stage with
  | arriving | counted | ended _ _ => cases holds
  | _ => exact (vipKey_inj.mp (Metrics.Held.holds.inj holds).1).2

theorem active_mem_iff {log : Log} :
    (∃ name l guard, ⟨.active name l, guard⟩ ∈ log) ↔
      ∃ event ∈ log, ∃ name l guard, handling event = some (.makes name l guard) := by
  constructor
  · rintro ⟨name, l, guard, made⟩
    exact ⟨_, made, name, l, guard, rfl⟩
  · rintro ⟨⟨op, answer⟩, member, name, l, guard, makes⟩
    cases op with
    | active name l => exact ⟨name, l, answer, member⟩
    | _ => cases makes

/-- A connection is open while its task holds the guard. -/
theorem open_iff {vip : String} {program : Task} {log : Log} {stage : Stage}
    (at_ : At vip program log stage) :
    ((∃ name l guard, ⟨.active name l, guard⟩ ∈ log) ∧ program ≠ .done (.inr ())) ↔
      ∃ guard, stage.held vip = .holds (vipKey connectionsActive vip) guard := by
  rw [Ne, at_.ended, active_mem_iff, ← Metrics.made_iff (heldOf_of_stageOf at_.follows)]
  cases stage with
  | _ => simp [Stage.held, Metrics.Held.made]

/--
Whatever connections come on whatever listeners, in any order, while members
change and others record: each series of a VIP counts its connections.
-/
theorem vip_counts
    (reached : (connections f64 listener).Reaches Threads.anySchedule
      ((connections f64 listener).initial (.start pools)) config) (v : String) :
    VipCounts listener config v where
  total := by
    refine counter_counts reached (by decide +kernel) v fun i stage at_ => ?_
    rw [connections_mem_incs at_.follows]
  active := by
    have handled (config : Config ι Op Op.Ans Empty Unit (World f64 κ))
        (reached : (connections f64 listener).Reaches Threads.anySchedule
          ((connections f64 listener).initial (.start pools)) config) (i : ι) :
        (Metrics.heldOf handling (config.histories i)).isSome = true := by
      obtain ⟨stage, at_⟩ := at_of_reaches reached i
      rw [heldOf_of_stageOf at_.follows]
      rfl
    have nothing : (World.start pools : World f64 κ).metrics.gauge (vipKey connectionsActive v) = 0 :=
      Metrics.gauge_default _
    obtain ⟨live, members, card⟩ := (guards f64 listener).counts reached handled
      (vipKey connectionsActive v) connectionsActive_mem nothing
    refine ⟨live, fun i => (members i).trans ?_, card⟩
    obtain ⟨stage, at_⟩ := at_of_reaches reached i
    change (∃ guard, Metrics.heldOf handling (config.histories i) = _) ↔ _
    rw [Open, open_iff at_, heldOf_of_stageOf at_.follows]
    constructor
    · rintro ⟨guard, holds⟩
      obtain rfl := stage.vip_of_held (Option.some.inj holds)
      exact ⟨rfl, guard, Option.some.inj holds⟩
    · rintro ⟨rfl, guard, holds⟩
      exact ⟨guard, congrArg some holds⟩
  refused := by
    refine counter_counts reached (by decide +kernel) v fun i stage at_ => ?_
    rw [refused_mem_incs, came_iff at_.follows, at_.unserved, not_exists]
  failed := by
    refine counter_counts reached (by decide +kernel) v fun i stage at_ => ?_
    rw [failed_mem_incs, came_iff at_.follows, at_.undialled, not_exists]
  ends i ended := by
    obtain ⟨stage, at_⟩ := at_of_reaches reached i
    obtain ⟨guard, fate, rfl⟩ := at_.ended.mp ended
    refine ⟨fate, (came_iff at_.follows fate).mpr rfl, fun other came => ?_⟩
    exact (Option.some.inj ((came_iff at_.follows other).mp came)).symm

end

/-- The pool picks, dials succeed, and the copying ends at once. -/
def dialsThrough {ι κ : Type} (listener : ι → Listener κ) (i : ι)
    (world : World Metrics.billionths κ) : (op : Op) → op.Ans
  | .inc .. => ()
  | .active name l => (world.metrics.active name l).2
  | .drop _ => ()
  | .pick => (world.pools (listener i).pool).pick.1
  | .connect _ => none
  | .setNodelay _ => none
  | .copyBidirectional => none

/-- The listeners of a VIP with a healthy member and of one with none. -/
def apiOrWeb : Bool → Listener Bool
  | true => { vip := "api", pool := true }
  | false => { vip := "web", pool := false }

def apiAndWeb : World Metrics.billionths Bool :=
  .start fun
    | true => (Pool.new [⟨.v4 ⟨10, 0, 0, 1⟩, 8080⟩]).setHealthy 0 true
    | false => .empty

/-- A connection to each: the first is copied, the second is refused. -/
def copiedAndRefused : Config Bool Op Op.Ans Empty Unit (World Metrics.billionths Bool) :=
  let system := connections Metrics.billionths apiOrWeb
  system.playSchedule Threads.anySchedule (dialsThrough apiOrWeb) (system.initial apiAndWeb)
    (List.replicate 6 true ++ List.replicate 5 false)

theorem vip_counts_copiedAndRefused :
    (∀ v, VipCounts apiOrWeb copiedAndRefused v) ∧
      copiedAndRefused.world.metrics.gauges[vipKey connectionsActive "api"]? = some 1 ∧
      copiedAndRefused.world.metrics.gauges[vipKey connectionsActive "web"]? = some 0 ∧
      copiedAndRefused.world.metrics.counters[vipKey noHealthyBackendTotal "web"]? = some 1 := by
  refine ⟨fun v => vip_counts (Threads.Reaches.playSchedule (dialsThrough apiOrWeb) _ .start) v, ?_⟩
  decide +kernel

end StormLb.Balancer
