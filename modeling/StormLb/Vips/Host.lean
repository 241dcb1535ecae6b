import StormLb.Vips.Instances
import StormLb.Vrrp.Ownership

/-!
# The VRRP loops of a changing registry

While VIPs are applied and removed, the loops of all instances ever started run
on, each until it sees its stop flag, and claim and release addresses on one
node.  The registry keeps listeners apart, not addresses: two VIPs on different
ports may own the same one.
-/

namespace StormLb.Vips

open StormLb.Net StormLb.Effects StormLb.Vrrp

/-- The instances that entries run, with the entries' names. -/
def Registry.instances (r : Registry) : List (String × Handle) :=
  r.vips.toList.filterMap fun (name, e) => e.vrrp.map fun handle => (name, handle)

/-- An `apply` or a `remove` that is accepted. -/
def Operation.Accepted (r : Registry) : Operation → Prop
  | .remove serde writeAtomic name => (r.remove serde writeAtomic name).1 = .ok ()
  | operation => operation.AcceptedApply r

theorem isOk_iff {ε α : Type} {result : Except ε α} :
    result.isOk = true ↔ ∃ value, result = .ok value := by
  cases result with
  | error e =>
      constructor
      · intro impossible
        cases impossible
      · rintro ⟨_, impossible⟩
        cases impossible
  | ok value => exact ⟨fun _ => ⟨value, rfl⟩, fun _ => rfl⟩

instance (r : Registry) (operation : Operation) : Decidable (operation.Accepted r) :=
  match operation with
  | .apply .. => decidable_of_iff _ isOk_iff
  | .remove .. => inferInstanceAs (Decidable (_ = _))
  | .startConfig .. | .loadState .. | .probed .. | .connected .. | .woken .. => .isFalse id

/-- A node: its registry, the interface addresses, and every instance started so far. -/
structure Host where
  registry : Registry
  addresses : Finset (String × String)
  started : List (String × Handle)

namespace Host

def new (addresses : Finset (String × String)) : Host where
  registry := Registry.new none
  addresses := addresses
  started := []

/-- What a started instance may be answered; the controller succeeds. -/
def serve (handle : Handle) (host : Host) (call : Vrrp.Call) (answer : call.Ans) : Option Host :=
  if handle ∈ host.started.map Prod.snd then
    match call, answer with
    | ⟨_, .claim vip iface⟩, true =>
        some { host with addresses := insert (iface, vip) host.addresses }
    | ⟨_, .claim ..⟩, false => none
    | ⟨_, .release vip iface⟩, true =>
        some { host with addresses := host.addresses.erase (iface, vip) }
    | ⟨_, .release ..⟩, false => none
    | ⟨_, .stopLoad⟩, stop =>
        if stop = decide (handle.id ∈ host.registry.stopped) then some host else none
    | _, _ => some host
  else none

/-- The operation is done, and the instances it made are started. -/
def after (host : Host) (operation : Operation) : Host :=
  let registry := host.registry.run operation
  { host with
    registry
    started := host.started ++ registry.instances.filter fun made => made ∉ host.started }

/-- No name had two instances. -/
def NoRestart (host : Host) : Prop :=
  (host.started.map Prod.fst).Nodup

instance (host : Host) : Decidable host.NoRestart :=
  inferInstanceAs (Decidable (List.Nodup _))

/-- An accepted operation that restarts no VIP's VRRP. -/
def Changes (host changed : Host) : Prop :=
  ∃ operation : Operation, operation.Accepted host.registry ∧ changed = host.after operation ∧
    changed.NoRestart

/-- Only a started instance is served, and only its claims and releases change anything. -/
theorem serve_cases {handle : Handle} {host after : Host} {call : Vrrp.Call} {answer : call.Ans}
    (served : host.serve handle call answer = some after) :
    handle ∈ host.started.map Prod.snd ∧
      ∃ addresses, after = { host with addresses } ∧ Controls call host.addresses addresses := by
  obtain ⟨l, op⟩ := call
  unfold serve at served
  split at served
  · rename_i running
    refine ⟨running, ?_⟩
    cases op with
    | claim vip iface =>
        cases answer with
        | false => cases served
        | true =>
            cases served
            exact ⟨_, rfl, .claimed vip iface rfl⟩
    | release vip iface =>
        cases answer with
        | false => cases served
        | true =>
            cases served
            exact ⟨_, rfl, .released vip iface rfl⟩
    | stopLoad =>
        dsimp only at served
        split at served
        · cases served
          exact ⟨_, rfl, .untouched rfl⟩
        · cases served
    | _ =>
        cases served
        exact ⟨_, rfl, .untouched rfl⟩
  · cases served

/-- The loops of all instances there may be, over the node they share. -/
def owners : Owners Handle Host where
  params := Handle.params
  serves := serve
  drifts := Changes
  addresses := Host.addresses
  controls served := by
    obtain ⟨_, addresses, rfl, controls⟩ := serve_cases served
    exact controls
  drifted := by
    rintro host changed ⟨operation, _, rfl, _⟩
    rfl

end Host

/-- Where the loops of all instances stand, what they did, and the node. -/
abbrev HostMoment := Config Handle Vrrp.Call Vrrp.Call.Ans Locals Exit Host

namespace Host

/-- Nothing is applied yet. -/
def start (addresses : Finset (String × String)) : HostMoment :=
  owners.threads.initial (new addresses)

/-- Every instance that waits as Master has its address. -/
def KeepsAddresses (config : HostMoment) : Prop :=
  ∀ handle l next, config.threads handle = .call ⟨some l, .recvFrom⟩ next → l.vr.state = .master →
    handle.params.owned ∈ config.world.addresses

/-- A release is made only while no other instance for the same address holds it. -/
def SparesHeld (who : Option Handle) (config : HostMoment) : Prop :=
  ∀ handle ∈ who, releasesNext (config.threads handle) = true →
    ∀ other ∈ config.world.started.map Prod.snd, other ≠ handle →
      other.params.owned = handle.params.owned → held (config.histories other) = false

instance (who : Option Handle) (config : HostMoment) : Decidable (SparesHeld who config) :=
  inferInstanceAs (Decidable (∀ handle ∈ who, _ → ∀ other ∈ _, _ → _ → _))

variable {addresses : Finset (String × String)} {config : HostMoment}
  {allowed : Option Handle → HostMoment → Prop}

/-- An instance that is not started has done nothing. -/
theorem histories_of_not_started
    (reached : Threads.Reaches owners.threads allowed (start addresses) config) (handle : Handle)
    (idle : handle ∉ config.world.started.map Prod.snd) : config.histories handle = [] := by
  induction reached with
  | start => rfl
  | @step config after who before admitted stepped ih =>
      cases stepped with
      | turn looped => exact ih idle
      | drift moved =>
          obtain ⟨operation, _, rfl, _⟩ := moved
          refine ih fun running => idle ?_
          rw [Host.after, List.map_append]
          exact List.mem_append_left _ running
      | @call _ other call next world answer waiting served =>
          obtain ⟨running, addresses, rfl, _⟩ := serve_cases served
          have apart : handle ≠ other := by
            rintro rfl
            exact idle running
          exact (Function.update_of_ne apart ..).trans (ih idle)

/-- The releases that the schedule admits spare every instance. -/
theorem spares_of_sparesHeld (addresses : Finset (String × String)) (handle : Handle) :
    owners.Spares SparesHeld (new addresses) handle := by
  intro config other reached admitted apart same releases
  by_cases running : handle ∈ config.world.started.map Prod.snd
  · exact admitted other rfl releases handle running (Ne.symm apart) same.symm
  · rw [histories_of_not_started reached handle running]
    rfl

/--
In every run in which no release takes an address from another instance that
holds it, every instance that waits as Master has its address.
-/
theorem keepsAddresses_of_sparesHeld
    (reached : Threads.Reaches owners.threads SparesHeld (start addresses) config) :
    KeepsAddresses config := by
  intro handle l next waiting master
  exact Owners.waits_mem (spares_of_sparesHeld addresses handle) reached waiting master

/-! ## Two VIPs on one address -/

/-- The owner of 192.168.8.50 on eth0. -/
def owner : VrrpSpec :=
  { eth0 with priority := 255 }

/-- Two VIPs on that address, on different ports. -/
def twoPorts (port : UInt16) : VipSpec :=
  { owned "192.168.8.50" owner with port }

def applyVip (name : String) (port : UInt16) : Operation :=
  .apply unasked freeNode (fun _ _ => .ok ()) name (twoPorts port)

def removeVip (name : String) : Operation :=
  .remove unasked (fun _ _ => .ok ()) name

/-- The instances of the first and the second VIP. -/
def instanceA : Handle where
  id := 2
  params := owner.params ⟨192, 168, 8, 50⟩

def instanceB : Handle where
  id := 5
  params := owner.params ⟨192, 168, 8, 50⟩

/-- Healthy at time 0, with nothing received; `stop` is read from the handle. -/
def quiet (handle : Handle) (host : Host) (call : Vrrp.Call) : call.Ans :=
  match call with
  | ⟨_, .stopLoad⟩ => decide (handle.id ∈ host.registry.stopped)
  | call => answers .timedOut [] call

/-- The operation is done if it may be, and the schedule goes on. -/
def goOn (allowed : Option Handle → HostMoment → Prop)
    [∀ who config, Decidable (allowed who config)] (config : HostMoment) (operation : Operation)
    (schedule : List Handle) : HostMoment :=
  if allowed none config ∧ operation.Accepted config.world.registry ∧
      (config.world.after operation).NoRestart then
    owners.threads.playSchedule allowed quiet { config with world := config.world.after operation }
      schedule
  else config

theorem reaches_goOn [∀ who config, Decidable (allowed who config)]
    (reached : Threads.Reaches owners.threads allowed (start addresses) config)
    (operation : Operation) (schedule : List Handle) :
    Threads.Reaches owners.threads allowed (start addresses)
      (goOn allowed config operation schedule) := by
  unfold goOn
  split
  · rename_i may
    obtain ⟨admitted, accepted, noRestart⟩ := may
    exact Threads.Reaches.playSchedule _ _
      (reached.step admitted (.drift ⟨operation, accepted, rfl, noRestart⟩))
  · exact reached

def waitsAsMaster : Prog (Locals ⊕ Exit) → Bool
  | .call ⟨some l, .recvFrom⟩ _ => l.vr.state = .master
  | _ => false

theorem exists_of_waitsAsMaster {program : Prog (Locals ⊕ Exit)}
    (waits : waitsAsMaster program = true) :
    ∃ l next, program = .call ⟨some l, .recvFrom⟩ next ∧ l.vr.state = .master := by
  unfold waitsAsMaster at waits
  split at waits
  · exact ⟨_, _, rfl, of_decide_eq_true waits⟩
  · cases waits

/-- The first VIP is applied, then the second, and then the first is removed. -/
def firstRemoved (allowed : Option Handle → HostMoment → Prop)
    [∀ who config, Decidable (allowed who config)] (first second third : List Handle) :
    HostMoment :=
  goOn allowed (goOn allowed (goOn allowed (start ∅) (applyVip "a" 6443) first)
    (applyVip "b" 7443) second) (removeVip "a") third

theorem reaches_firstRemoved (allowed : Option Handle → HostMoment → Prop)
    [∀ who config, Decidable (allowed who config)] (first second third : List Handle) :
    Threads.Reaches owners.threads allowed (start ∅) (firstRemoved allowed first second third) :=
  reaches_goOn (reaches_goOn (reaches_goOn .start _ _) _ _) _ _

/-- Both instances wait as Master; the first VIP is removed, and its instance releases. -/
def taken : HostMoment :=
  firstRemoved Threads.anySchedule [] (List.replicate 13 instanceA ++ List.replicate 13 instanceB)
    (List.replicate 10 instanceA)

/-- The first instance has released when the second one starts. -/
def spared : HostMoment :=
  firstRemoved SparesHeld (List.replicate 13 instanceA) []
    (List.replicate 10 instanceA ++ List.replicate 13 instanceB)

theorem waits_taken : waitsAsMaster (taken.threads instanceB) = true := by decide +kernel

theorem waits_spared : waitsAsMaster (spared.threads instanceB) = true := by decide +kernel

/-- The second VIP's instance waits as Master without its address. -/
theorem removal_takes_address :
    ¬ ∀ (addresses : Finset (String × String)) (config : HostMoment),
      Threads.Reaches owners.threads Threads.anySchedule (start addresses) config →
        KeepsAddresses config := by
  intro keeps
  obtain ⟨l, next, waiting, master⟩ := exists_of_waitsAsMaster waits_taken
  have present := keeps ∅ taken (reaches_firstRemoved ..) instanceB l next waiting master
  exact absurd present (by decide +kernel)

set_option maxRecDepth 4000 in
theorem keepsAddresses_spared :
    (∃ l next, spared.threads instanceB = .call ⟨some l, .recvFrom⟩ next ∧ l.vr.state = .master) ∧
      KeepsAddresses spared := by
  have reached : Threads.Reaches owners.threads SparesHeld (start ∅) spared :=
    reaches_firstRemoved ..
  exact ⟨exists_of_waitsAsMaster waits_spared, keepsAddresses_of_sparesHeld reached⟩

end Host

end StormLb.Vips
