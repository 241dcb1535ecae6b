import StormLb.Vips.ConfigVip
import StormLb.Vrrp.LoopInvariant
import StormLb.Vrrp.RoundTrip

/-!
# The VRRP instances of a registry

Whatever is done to a registry, the instance that an entry runs was started
with the settings of the entry's spec.  What instances of different registries
make of each other's advertisements is then read off the specs: an instance
answers to its VRID, and the address it is for plays no part.
-/

namespace StormLb.Vips

open StormLb.Net StormLb.Effects StormLb.Vrrp

/-- What an instance with these settings is started with. -/
def VrrpSpec.params (v : VrrpSpec) (vip : Ipv4Addr) : Vrrp.Params where
  vrid := v.vrid
  priority := v.priority
  preempt := v.preempt
  advertIntervalSecs := v.advertIntervalSecs
  iface := v.interface
  vip := vip

/-- These are the settings of the spec's instance. -/
structure VipSpec.Owns (spec : VipSpec) (v : VrrpSpec) (p : Vrrp.Params) : Prop where
  owned : spec.vrrp = some v
  address : IpAddr.parse spec.address = some (.v4 p.vip)
  accepted : v.Accepted
  params : p = v.params p.vip

/-- The entry's instance, if it runs one, was started with its spec's settings. -/
def Entry.RunsSpec (e : Entry) : Prop :=
  ∀ handle, e.vrrp = some handle → ∃ v, e.spec.Owns v handle.params

theorem startVrrp_owns {id : Nat} {spec : VipSpec} {c : Checked} {handle : Handle}
    (checked : check spec = .ok c) (started : startVrrp id spec c.vrrpVip = some handle) :
    ∃ v, spec.Owns v handle.params := by
  cases owned : spec.vrrp with
  | none =>
      rw [startVrrp, owned] at started
      cases started
  | some v =>
      obtain ⟨vip, same, address, accepted⟩ := vrrp_of_check checked owned
      rw [startVrrp, owned, same] at started
      cases started
      exact ⟨v, owned, address, accepted, rfl⟩

namespace Registry

def RunsSpecs (r : Registry) : Prop :=
  ∀ (name : String) (e : Entry), r.vips[name]? = some e → e.RunsSpec

theorem SameBesides.runsSpecs {r after : Registry} {name : String} {e : Entry}
    (same : r.SameBesides name e after) (runs : r.RunsSpecs) (entry : e.RunsSpec) :
    after.RunsSpecs := by
  intro other e' present
  rw [same.getElem?] at present
  split at present
  · cases present
    exact entry
  · exact runs other e' present

theorem put_runsSpecs {r : Registry} (env : Environment) (name : String) (spec : VipSpec)
    (fromConfig : Bool) (runs : r.RunsSpecs) : (r.put env name spec fromConfig).2.RunsSpecs := by
  have outcome := r.put_outcome env name spec fromConfig
  generalize r.put env name spec fromConfig = result at outcome ⊢
  cases outcome with
  | refused error refuses => exact runs
  | @halfway c e message after admits fails same =>
      refine same.runsSpecs runs fun handle running => ?_
      have before := runs name e admits.present handle (by simpa [Entry.halfway] using running)
      simpa [Entry.halfway] using before
  | @updated c e replaced after admits reloads replaces same =>
      refine same.runsSpecs runs fun handle running => ?_
      have sets := replaces.setsVrrp
      rw [replaces.setsSpec]
      split at sets
      · obtain ⟨id, started⟩ := sets
        exact startVrrp_owns admits.checked (started.symm.trans running)
      · -- The instance goes on, and the settings it was started with are the new spec's.
        rename_i unchanged
        obtain ⟨sameVrrp, sameAddress⟩ := not_or.mp unchanged
        obtain ⟨v, owns⟩ := runs name e admits.present handle (sets.symm.trans running)
        refine ⟨v, ?_, ?_, owns.accepted, owns.params⟩
        · rw [not_not.mp sameVrrp, owns.owned]
        · rw [not_not.mp sameAddress, owns.address]
  | created checked free absent made same =>
      refine same.runsSpecs runs fun handle running => ?_
      obtain ⟨id, started⟩ := made.setsVrrp
      rw [made.setsSpec]
      exact startVrrp_owns checked (started.symm.trans running)

theorem kept_runsSpecs : Kept (fun _ => True) RunsSpecs where
  congr same runs name e present := runs name e (by rwa [same] at present)
  put name spec fromConfig _ runs := put_runsSpecs _ name spec fromConfig runs
  erase erased runs other e present := by
    rw [erased, Std.ExtTreeMap.getElem?_erase] at present
    split at present
    · cases present
    · exact runs other e present
  idle present idles runs := by
    refine (setEntry_sameBesides _ _ rfl rfl rfl).runsSpecs runs fun handle running => ?_
    rw [idles.spec]
    exact runs _ _ present handle (idles.vrrp.symm.trans running)

/-- In every registry reached, each instance runs with the settings of its entry's spec. -/
theorem runAll_runsSpecs (stateFile : Option String) (operations : List Operation) :
    ((new stateFile).runAll operations).RunsSpecs := by
  refine kept_runsSpecs.runAll (fun operation _ => operation.puts_of_forall fun _ => trivial) ?_
  intro name e present
  simp [Registry.new] at present

end Registry

/-! ## Two instances on one segment -/

end StormLb.Vips

namespace StormLb.Vrrp

open StormLb.Net StormLb.Effects

/--
Whatever the clock and the controller answer, the datagram leaves the state, the
learned interval and the master-down deadline as they were.
-/
def Params.Undisturbed (p : Params) (l : Locals) (datagram : List UInt8) : Prop :=
  Program.Yields (fun result _ => ∃ after, result = .inl after ∧
    after.vr.state = l.vr.state ∧
    after.vr.masterAdverIntervalCentis = l.vr.masterAdverIntervalCentis ∧
    after.masterDownDeadline = l.masterDownDeadline) (p.onDatagram l datagram) []

/-- An instance drops every advertisement of another VRID. -/
theorem undisturbed_of_vrid_ne (header : Ipv4Header) {p other : Params}
    (apart : other.vrid ≠ p.vrid) (l sender : Locals) (priority : UInt8) :
    p.Undisturbed l (header.bytes ++ other.packet sender priority) := by
  have long : 8 ≤ (other.packet sender priority).length := by
    rw [Params.packet, encodeAdvertisement_eq]
    simp only [List.length_append, advertisementFront_length, toBeBytes_length]
    omega
  have dropped : parseAdvertisement (header.bytes ++ other.packet sender priority) p.vrid = none := by
    rw [header.parseAdvertisement_append long, if_neg]
    rintro ⟨_, _, _, same, _⟩
    exact apart same
  rw [Params.Undisturbed, Params.onDatagram, dropped]
  exact ⟨l, rfl, rfl, rfl, rfl⟩

/-- The instance may be waiting for a datagram with these local variables. -/
def Params.Waits (p : Params) (l : Locals) : Prop :=
  ∃ next log, Runs p.turnRun p.startRun (.call ⟨some l, .recvFrom⟩ next) log

end StormLb.Vrrp

namespace StormLb.Vips

open StormLb.Net StormLb.Effects StormLb.Vrrp

/--
Instances of any two reached registries whose specs name different VRIDs leave
each other alone.
-/
theorem Registry.instances_isolated (stateFile stateFile' : Option String)
    (operations operations' : List Operation) {name name' : String} {e e' : Entry}
    {v v' : VrrpSpec} {handle handle' : Handle}
    (present : ((new stateFile).runAll operations).vips[name]? = some e)
    (present' : ((new stateFile').runAll operations').vips[name']? = some e')
    (runs : e.vrrp = some handle) (runs' : e'.vrrp = some handle')
    (owned : e.spec.vrrp = some v) (owned' : e'.spec.vrrp = some v') (apart : v.vrid ≠ v'.vrid)
    (header : Ipv4Header) (sender l : Locals) (priority : UInt8) :
    handle'.params.Undisturbed l (header.bytes ++ handle.params.packet sender priority) := by
  obtain ⟨w, owns⟩ := runAll_runsSpecs stateFile operations name e present handle runs
  obtain ⟨w', owns'⟩ := runAll_runsSpecs stateFile' operations' name' e' present' handle' runs'
  obtain rfl := Option.some.inj (owned.symm.trans owns.owned)
  obtain rfl := Option.some.inj (owned'.symm.trans owns'.owned)
  refine undisturbed_of_vrid_ne header ?_ l sender priority
  rw [owns.params, owns'.params]
  exact apart

/-! ## Two VIPs with the default VRID -/

/-- An `apply` that is accepted. -/
def Operation.AcceptedApply (r : Registry) : Operation → Prop
  | .apply serde env writeAtomic name spec =>
      ∃ created, (r.apply serde env writeAtomic name spec).1 = .ok created
  | _ => False

/-- VRRP on eth0, the other settings left out. -/
def eth0 : VrrpSpec where
  interface := "eth0"

def owned (address : String) (v : VrrpSpec) : VipSpec where
  address := address
  port := 6443
  vrrp := some v

/-- The node's one VIP is applied. -/
def applied (name address : String) (v : VrrpSpec) : List Operation :=
  [.apply unasked freeNode (fun _ _ => .ok ()) name (owned address v)]

/-- The instance of a node's one VIP. -/
def only (v : VrrpSpec) (vip : Ipv4Addr) : Handle where
  id := 2
  params := v.params vip

/-- What the second node's instance first waits with. -/
def secondNode : Locals where
  ifaceIp := ⟨192, 168, 8, 10⟩
  vr := (eth0.params ⟨192, 168, 8, 60⟩).router.start true
  nextAdvert := 0
  masterDownDeadline := centis 360

def firstNode : Locals :=
  { secondNode with ifaceIp := ⟨192, 168, 8, 11⟩ }

theorem applied_first :
    ((Registry.new none).runAll (applied "a" "192.168.8.50" eth0)).vips["a"]?.bind Entry.vrrp =
      some (only eth0 ⟨192, 168, 8, 50⟩) := by decide +kernel

/-- The second node hears the first node's advertisement, and waits another 3.6 s. -/
theorem onDatagram_secondNode :
    (only eth0 ⟨192, 168, 8, 60⟩).params.onDatagram secondNode
        (routerAlert.bytes ++ (only eth0 ⟨192, 168, 8, 50⟩).params.packet firstNode 100) =
      .call ⟨some secondNode, .now⟩ fun now =>
        .done (.inl { secondNode with masterDownDeadline := now + centis 360 }) := by
  have parsed : parseAdvertisement
      (routerAlert.bytes ++ (only eth0 ⟨192, 168, 8, 50⟩).params.packet firstNode 100) 51 =
        some ⟨100, ⟨192, 168, 8, 11⟩, 100⟩ := by decide +kernel
  rw [Params.onDatagram, show (only eth0 ⟨192, 168, 8, 60⟩).params.vrid = 51 from rfl, parsed]
  rfl

/-- With the default VRID, the advertisements for one VIP put off the takeover of another. -/
theorem same_vrid_disturbs :
    ¬ ∀ (stateFile stateFile' : Option String) (operations operations' : List Operation)
      (name name' : String) (e e' : Entry) (handle handle' : Handle),
      Registry.AllMeet Operation.AcceptedApply (Registry.new stateFile) operations →
      Registry.AllMeet Operation.AcceptedApply (Registry.new stateFile') operations' →
      ((Registry.new stateFile).runAll operations).vips[name]? = some e →
      ((Registry.new stateFile').runAll operations').vips[name']? = some e' →
      e.vrrp = some handle → e'.vrrp = some handle' →
      handle.params.vip ≠ handle'.params.vip →
      ∀ (header : Ipv4Header) (sender l : Locals) (priority : UInt8), header.ttl = 255 →
        header.src = sender.ifaceIp → handle'.params.Waits l →
          handle'.params.Undisturbed l (header.bytes ++ handle.params.packet sender priority) := by
  intro isolated
  have applied_second : ((Registry.new none).runAll
      (applied "b" "192.168.8.60" eth0)).vips["b"]?.bind Entry.vrrp =
        some (only eth0 ⟨192, 168, 8, 60⟩) := by decide +kernel
  obtain ⟨e, present, runs⟩ := Option.bind_eq_some_iff.mp applied_first
  obtain ⟨e', present', runs'⟩ := Option.bind_eq_some_iff.mp applied_second
  have undisturbed := isolated none none _ _ "a" "b" e e' _ _
    (show Registry.AllMeet _ _ (applied _ _ _) from ⟨⟨true, by decide +kernel⟩, trivial⟩)
    (show Registry.AllMeet _ _ (applied _ _ _) from ⟨⟨true, by decide +kernel⟩, trivial⟩)
    present present' runs runs' (by decide) routerAlert firstNode secondNode 100 rfl rfl
    ⟨_, _, Runs.play (answers .timedOut) 12 .start⟩
  rw [Params.Undisturbed, onDatagram_secondNode] at undisturbed
  obtain ⟨after, same, _, _, deadline⟩ := undisturbed.2 (1 : Nat)
  cases same
  exact absurd deadline (by decide)

/-- With a VRID of its own, the second VIP is left alone. -/
theorem instances_isolated_ownVrid :
    ∃ e e' handle handle',
      ((Registry.new none).runAll (applied "a" "192.168.8.50" eth0)).vips["a"]? = some e ∧
      ((Registry.new none).runAll
        (applied "b" "192.168.8.60" { eth0 with vrid := 52 })).vips["b"]? = some e' ∧
      e.vrrp = some handle ∧ e'.vrrp = some handle' ∧
      handle'.params.Undisturbed secondNode
        (routerAlert.bytes ++ handle.params.packet firstNode 100) := by
  have applied_second : ((Registry.new none).runAll
      (applied "b" "192.168.8.60" { eth0 with vrid := 52 })).vips["b"]?.bind Entry.vrrp =
        some (only { eth0 with vrid := 52 } ⟨192, 168, 8, 60⟩) := by decide +kernel
  obtain ⟨e, present, runs⟩ := Option.bind_eq_some_iff.mp applied_first
  obtain ⟨e', present', runs'⟩ := Option.bind_eq_some_iff.mp applied_second
  have spec : ((Registry.new none).runAll (applied "a" "192.168.8.50" eth0)).vips["a"]?.map
      (fun e => e.spec.vrrp) = some (some eth0) := by decide +kernel
  have spec' : ((Registry.new none).runAll
      (applied "b" "192.168.8.60" { eth0 with vrid := 52 })).vips["b"]?.map
        (fun e => e.spec.vrrp) = some (some { eth0 with vrid := 52 }) := by decide +kernel
  rw [present] at spec
  rw [present'] at spec'
  exact ⟨e, e', _, _, present, present', runs, runs',
    Registry.instances_isolated none none _ _ present present' runs runs' (Option.some.inj spec)
      (Option.some.inj spec') (by decide) routerAlert firstNode secondNode 100⟩

end StormLb.Vips
