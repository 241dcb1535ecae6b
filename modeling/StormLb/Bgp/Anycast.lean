import StormLb.Bgp.Rib
import StormLb.Effects.Restart
import StormLb.Net.AddrText
import StormLb.Pool

/-!
# The VIP by anycast

`preflight`, `spawn` and the health watch of `main`: a session with every peer,
begun again whenever it ends, and a task that samples the pool.  Whatever
happens to the sessions, each peer has the VIP's route exactly while the pool
has a healthy member, once its session has seen the last change.
-/

namespace StormLb.Bgp

open StormLb.Net StormLb.Effects StormLb.Bgp.Rfc4271

/-! ## The configuration -/

structure BgpPeer where
  address : String
  asn : UInt32
  port : UInt16 := 179
  deriving DecidableEq, Repr

structure BgpCfg where
  enabled : Bool := false
  localAsn : UInt32 := 0
  routerId : String := ""
  peers : List BgpPeer := []
  deriving DecidableEq, Repr

/-- Validate the config; the next-hop is this node's address. -/
def preflight (cfg : BgpCfg) : Except String Ipv4Addr :=
  if cfg.localAsn = 0 ∨ 65535 < cfg.localAsn then
    .error "bgp.local_asn must be a 2-byte private ASN (1..65535) for now"
  else if cfg.peers = [] then .error "bgp.enabled but no peers configured"
  else
    match Ipv4Addr.parse cfg.routerId with
    | some nextHop => .ok nextHop
    | none => .error "bgp.router_id must be this node's IPv4 (used as next-hop)"

/-- The session of a peer, unless its address is bad. -/
def BgpPeer.speaker (cfg : BgpCfg) (vip nextHop : Ipv4Addr) (peer : BgpPeer) : Option Speaker :=
  (Ipv4Addr.parse peer.address).map fun ip =>
    { peer := { ip, port := peer.port, asn := peer.asn }
      localAsn := cfg.localAsn
      bgpId := (Ipv4Addr.parse cfg.routerId).getD nextHop
      nextHop
      vip }

/-- The sessions that `spawn` runs. -/
def speakers (cfg : BgpCfg) (vip nextHop : Ipv4Addr) : List Speaker :=
  cfg.peers.filterMap (BgpPeer.speaker cfg vip nextHop)

/-! ## The node -/

/-- The pool of the config VIP, the value it was last sampled to, and who has not seen that. -/
structure Sampled (ι : Type) where
  pool : Pool
  value : Bool
  unseen : ι → Bool

namespace Sampled

variable {ι : Type}

/-- Whether the pool has a healthy member. -/
def healthy (node : Sampled ι) : Bool :=
  0 < node.pool.healthyCount

/-- The sampling task: the value is sent when it is another. -/
def sample (node : Sampled ι) : Sampled ι :=
  if node.value ≠ node.healthy then { node with value := node.healthy, unseen := fun _ => true }
  else node

/-- What a session sees of it. -/
def watch (node : Sampled ι) (i : ι) : Watch where
  value := node.value
  unseen := node.unseen i

/-- An operation of a session. -/
def serve [DecidableEq ι] (i : ι) (node : Sampled ι) (op : Op) (answer : op.Ans) :
    Option (Sampled ι) :=
  ((node.watch i).serve op answer).map fun watch =>
    { node with unseen := Function.update node.unseen i watch.unseen }

/-- What else happens: probes, connections, and samples. -/
inductive Moves (node : Sampled ι) : Sampled ι → Prop where
  | probed (id : Nat) (healthy : Bool) :
      Moves node { node with pool := node.pool.setHealthy id healthy }
  | connected : Moves node { node with pool := node.pool.pick.2 }
  | sampled : Moves node node.sample

end Sampled

/-- The sessions, each begun again whenever it ends. -/
def anycast {ι : Type} [DecidableEq ι] (s : ι → Speaker) :
    Threads ι Op Op.Ans (Option Established) Empty (Sampled ι) where
  first i := restart (s i).start (s i).turn none
  body i := restart (s i).start (s i).turn
  serves := Sampled.serve
  drifts := Sampled.Moves

/-! ## What holds of every session -/

/-- A session sees the value; it never changes it. -/
theorem Watch.serve_value {watch after : Watch} {op : Op} {answer : op.Ans}
    (served : watch.serve op answer = some after) : after.value = watch.value := by
  cases op with
  | select deadline =>
      cases answer with
      | changed =>
          rw [Watch.serve] at served
          split at served
          · cases served
            rfl
          · cases served
      | _ =>
          cases served
          rfl
  | borrowAndUpdate =>
      rw [Watch.serve] at served
      split at served
      · cases served
        rfl
      · cases served
  | _ =>
      cases served
      rfl

/-- A sample is sent to every session. -/
theorem Sampled.watch_sample {ι : Type} (node : Sampled ι) (i : ι) :
    node.sample.watch i = node.watch i ∨
      ∃ value, node.sample.watch i = { value, unseen := true } := by
  unfold Sampled.sample
  split
  · exact .inr ⟨node.healthy, rfl⟩
  · exact .inl rfl

section

variable {ι : Type} [DecidableEq ι] {s : ι → Speaker} {node : Sampled ι}
  {config : Config ι Op Op.Ans (Option Established) Empty (Sampled ι)}

/-- A session does only what is in step with its peer's routes, in all its lives. -/
theorem inStep_of_reaches
    (reached : (anycast s).Reaches Threads.anySchedule ((anycast s).initial node) config) (i : ι) :
    Program.Keeps (s i).InStep (LoopPost (Within (s i).Agrees) fun _ _ => True)
        (config.threads i) (config.histories i) ∧
      History.Always (s i).InStep (config.histories i) :=
  (reached.solo i).restarted (s i).inStep_start fun _ _ => Speaker.inStep_turn

/-- What a session serves itself leaves the others' sights alone. -/
theorem Sampled.watch_serve {i : ι} {op : Op} {answer : op.Ans} {after : Sampled ι}
    (served : Sampled.serve i node op answer = some after) :
    (node.watch i).serve op answer = some (after.watch i) ∧
      ∀ j, j ≠ i → after.watch j = node.watch j := by
  obtain ⟨watch, answered, rfl⟩ := Option.map_eq_some_iff.mp served
  have value : watch.value = node.value := Watch.serve_value answered
  constructor
  · rw [answered]
    simp [Sampled.watch, ← value]
  · intro j apart
    simp [Sampled.watch, apart]

/-- What a session knows of the sampled value is true of it. -/
def KnowsSampled (i : ι) (config : Config ι Op Op.Ans (Option Established) Empty (Sampled ι)) :
    Prop :=
  (config.world.watch i).Matches (sight (config.histories i))

theorem knowsSampled_of_reaches
    (reached : (anycast s).Reaches Threads.anySchedule ((anycast s).initial node) config) (i : ι) :
    KnowsSampled i config := by
  refine reached.invariant ?_ ?_
  · exact trivial
  · intro who config after reached knows _ stepped
    cases stepped with
    | turn looped => exact knows
    | drift moved =>
        cases moved with
        | probed id healthy => exact knows
        | connected => exact knows
        | sampled =>
            rcases config.world.watch_sample i with same | ⟨value, sent⟩
            · rw [KnowsSampled, same]
              exact knows
            · rw [KnowsSampled, sent]
              exact knows.sent value
    | @call _ j op next world answer waiting served =>
        obtain ⟨own, others⟩ := Sampled.watch_serve served
        by_cases same : i = j
        · subst same
          rw [KnowsSampled, Config.advance_histories_self]
          exact knows.served own
        · rw [KnowsSampled, Config.advance_histories_of_ne _ same]
          exact (others i same).symm ▸ knows

end

/-! ## What the peers have -/

theorem hostLength_le : 32 ≤ 32 :=
  Nat.le_refl 32

/-- The routes that a node's configuration asks for: the VIP's /32 by way of the node, or none. -/
def BgpCfg.routes (cfg : BgpCfg) (vip nextHop : Ipv4Addr) (healthy : Bool) : Rib :=
  fun destination =>
    if healthy = true ∧ destination = .of vip 32 hostLength_le then
      some (announced cfg.localAsn.toUInt16 nextHop)
    else none

/-- The sessions have the node's values. -/
theorem routes_of_mem_speakers {cfg : BgpCfg} {vip nextHop : Ipv4Addr} {s : Speaker}
    (member : s ∈ speakers cfg vip nextHop) : s.routes = cfg.routes vip nextHop := by
  obtain ⟨peer, _, made⟩ := List.mem_filterMap.mp member
  obtain ⟨ip, _, rfl⟩ := Option.map_eq_some_iff.mp made
  rfl

/-- A checked configuration: its AS number is sent whole, and the router id is the next hop. -/
theorem preflight_ok {cfg : BgpCfg} {nextHop : Ipv4Addr} (valid : preflight cfg = .ok nextHop) :
    cfg.localAsn.toUInt16.toNat = cfg.localAsn.toNat ∧
      Ipv4Addr.parse cfg.routerId = some nextHop := by
  unfold preflight at valid
  split at valid
  · cases valid
  · rename_i inRange
    split at valid
    · cases valid
    · split at valid
      · rename_i parsed
        cases valid
        refine ⟨?_, parsed⟩
        have short : cfg.localAsn ≤ 65535 := UInt32.not_lt.mp fun long => inRange (.inr long)
        have short : cfg.localAsn.toNat ≤ 65535 := short
        rw [UInt32.toNat_toUInt16]
        omega
      · cases valid

/-- One session task per configured peer. -/
def spawn (cfg : BgpCfg) (vip nextHop : Ipv4Addr) :
    Threads (Fin (speakers cfg vip nextHop).length) Op Op.Ans (Option Established) Empty
      (Sampled (Fin (speakers cfg vip nextHop).length)) :=
  anycast fun i => (speakers cfg vip nextHop)[i]

/-- What the peer of a session has of it. -/
structure Advertised {ι : Type} (cfg : BgpCfg) (vip nextHop : Ipv4Addr)
    (config : Config ι Op Op.Ans (Option Established) Empty (Sampled ι)) (i : ι) : Prop where
  /-- The VIP's route, or none. -/
  routes : ∃ announced, ribOf (config.histories i) = cfg.routes vip nextHop announced
  /-- What the pool was last sampled to, where the session waits with nothing unseen. -/
  sampled : ∀ deadline next, config.threads i = .call (.select deadline) next →
    config.world.unseen i = false →
      ribOf (config.histories i) = cfg.routes vip nextHop config.world.value
  /-- With the last sample still true: whether a member is healthy. -/
  follows : ∀ deadline next, config.threads i = .call (.select deadline) next →
    config.world.unseen i = false → config.world.value = config.world.healthy →
      (ribOf (config.histories i) (.of vip 32 (Nat.le_refl 32)) =
          some (announced cfg.localAsn.toUInt16 nextHop) ↔
        ∃ b ∈ config.world.pool.backends, b.healthy = true)

theorem Sampled.healthy_iff {ι : Type} (node : Sampled ι) :
    node.healthy = true ↔ ∃ b ∈ node.pool.backends, b.healthy = true := by
  rw [Sampled.healthy, decide_eq_true_iff, Pool.healthyCount]
  simp

/--
Whatever the sessions, the peers and the probes do, in any order: no peer ever
has another route of the node than the VIP's, and a session that waits with
nothing unseen has told its peer what the pool was last sampled to.
-/
theorem ribs_follow_health {cfg : BgpCfg} {vip nextHop : Ipv4Addr}
    (valid : preflight cfg = .ok nextHop)
    {node : Sampled (Fin (speakers cfg vip nextHop).length)}
    {config : Config (Fin (speakers cfg vip nextHop).length) Op Op.Ans (Option Established) Empty
      (Sampled (Fin (speakers cfg vip nextHop).length))}
    (reached : (spawn cfg vip nextHop).Reaches Threads.anySchedule
      ((spawn cfg vip nextHop).initial node) config)
    (i : Fin (speakers cfg vip nextHop).length) :
    cfg.localAsn.toUInt16.toNat = cfg.localAsn.toNat ∧
      Ipv4Addr.parse cfg.routerId = some nextHop ∧ Advertised cfg vip nextHop config i := by
  obtain ⟨asn, routerId⟩ := preflight_ok valid
  obtain ⟨keeps, always⟩ := inStep_of_reaches reached i
  have knows : KnowsSampled i config := knowsSampled_of_reaches reached i
  have same : (speakers cfg vip nextHop)[i].routes = cfg.routes vip nextHop :=
    routes_of_mem_speakers (List.getElem_mem i.isLt)
  have sampled : ∀ deadline next, config.threads i = .call (.select deadline) next →
      config.world.unseen i = false →
        ribOf (config.histories i) = cfg.routes vip nextHop config.world.value := by
    intro deadline next waiting nothingUnseen
    rw [waiting] at keeps
    obtain ⟨announced, has, marked | read⟩ := keeps.1
    · rw [KnowsSampled, marked] at knows
      exact absurd (knows.symm.trans nothingUnseen) (by simp)
    · rw [KnowsSampled, read] at knows
      have value : config.world.value = announced := knows nothingUnseen
      rw [has, same, value]
  refine ⟨asn, routerId, ?_, sampled, ?_⟩
  · obtain ⟨announced, has⟩ := Speaker.ribOf_of_always always
    exact ⟨announced, has.trans (congrFun same announced)⟩
  · intro deadline next waiting nothingUnseen current
    rw [sampled deadline next waiting nothingUnseen, current, ← Sampled.healthy_iff]
    simp [BgpCfg.routes]

/-- Two routers, and a peer whose address is none. -/
def twoRouters : BgpCfg where
  enabled := true
  localAsn := 64512
  routerId := "192.168.8.51"
  peers := [{ address := "192.168.8.1", asn := 64513 }, { address := "router-2", asn := 64513 },
    { address := "192.168.8.2", asn := 64513 }]

/-- A node whose one member is healthy; that was sampled and sent. -/
def oneHealthy {ι : Type} : Sampled ι where
  pool := (Pool.new [⟨.v4 ⟨10, 0, 0, 1⟩, 8080⟩]).setHealthy 0 true
  value := true
  unseen := fun _ => true

/-- Thirteen moves of the first session, and twelve of the second. -/
def twoSessions :
    Config (Fin (speakers twoRouters ⟨192, 168, 8, 50⟩ ⟨192, 168, 8, 51⟩).length) Op Op.Ans
      (Option Established) Empty
      (Sampled (Fin (speakers twoRouters ⟨192, 168, 8, 50⟩ ⟨192, 168, 8, 51⟩).length)) :=
  (spawn twoRouters ⟨192, 168, 8, 50⟩ ⟨192, 168, 8, 51⟩).playSchedule Threads.anySchedule
    (fun i node => router () (node.watch i)) ((spawn twoRouters _ _).initial oneHealthy)
    (List.replicate 13 ⟨0, by decide +kernel⟩ ++ List.replicate 12 ⟨1, by decide +kernel⟩)

-- The first waits with nothing unseen, and its peer has the route.
theorem ribs_follow_health_twoRouters :
    (∃ next, twoSessions.threads ⟨0, by decide +kernel⟩ = .call (.select (secs 90)) next) ∧
      twoSessions.world.unseen ⟨0, by decide +kernel⟩ = false ∧
      twoSessions.world.value = twoSessions.world.healthy ∧
      Advertised twoRouters ⟨192, 168, 8, 50⟩ ⟨192, 168, 8, 51⟩ twoSessions
        ⟨0, by decide +kernel⟩ := by
  have valid : preflight twoRouters = .ok ⟨192, 168, 8, 51⟩ := by decide +kernel
  have reached : (spawn twoRouters ⟨192, 168, 8, 50⟩ ⟨192, 168, 8, 51⟩).Reaches
      Threads.anySchedule ((spawn twoRouters _ _).initial oneHealthy) twoSessions := by
    unfold twoSessions
    exact Threads.Reaches.playSchedule _ _ .start
  refine ⟨⟨_, by rfl⟩, by decide +kernel, by decide +kernel, ?_⟩
  exact (ribs_follow_health valid reached ⟨0, by decide +kernel⟩).2.2

end StormLb.Bgp
