import StormLb.Vips.Spec
import StormLb.Vrrp.Rfc5798

/-!
# The virtual router refines the standard

Event by event, the state machine of the source does what RFC 5798 says, with
the same timers, and health only ever keeps it from being Master.  Startup is an
event of the Initialize state: called again later, `start` goes back to Backup.
-/

namespace StormLb.Vrrp

open StormLb.Net StormLb.Effects Rfc5798

/-! ## The source's machine, under the standard's words -/

def OnAdvert.action : OnAdvert → Action
  | .ignore => .discard
  | .resetTimer centis => .setTimer centis.toNat
  | .advertiseNow => .advertise
  | .demoted centis => .giveWay centis.toNat

namespace VirtualRouter

/-- The answer to one turn; a router that starts as Backup sets its timer, as `run_loop` does. -/
def react (ourAddr : Ipv4Addr) (vr : VirtualRouter) : Turn → Action × VirtualRouter
  | .event .startup healthy =>
      let vr := vr.start healthy
      (if vr.state = .master then .takeOver else .setTimer vr.masterDownIntervalCentis.toNat, vr)
  | .event .masterDown healthy =>
      let (takesOver, vr) := vr.onMasterDownTimeout healthy
      (if takesOver then .takeOver else .discard, vr)
  | .event (.advertisement priority sender adverInterval) _ =>
      let (answer, vr) := vr.onAdvertisement priority sender ourAddr adverInterval
      (answer.action, vr)
  | .health healthy =>
      let (resigns, vr) := vr.onHealth healthy
      (if resigns then .resign else .discard, vr)

/-- With the timers it leaves behind. -/
def machine (ourAddr : Ipv4Addr) : Machine VirtualRouter Turn Observation :=
  fun vr turn =>
    let (action, vr) := vr.react ourAddr turn
    ({ action
       state := vr.state
       masterAdverInterval := vr.masterAdverIntervalCentis.toNat
       skewTime := vr.skewCentis.toNat
       masterDownInterval := vr.masterDownIntervalCentis.toNat }, vr)

/-! ## The timers -/

theorem skewCentis_toNat (vr : VirtualRouter) :
    vr.skewCentis.toNat =
      (256 - vr.priority.toNat) * vr.masterAdverIntervalCentis.toNat / 256 := by
  have priority := vr.priority.toNat_lt
  have interval := vr.masterAdverIntervalCentis.toNat_lt
  have rest : (256 - vr.priority.toUInt32).toNat = 256 - vr.priority.toNat := by
    rw [UInt32.toNat_sub_of_le]
    · simp
    · rw [UInt32.le_iff_toNat_le]
      simp only [UInt8.toNat_toUInt32, UInt32.reduceToNat]
      omega
  have small : (256 - vr.priority.toNat) * vr.masterAdverIntervalCentis.toNat ≤ 256 * 65536 :=
    Nat.mul_le_mul (by omega) (by omega)
  simp only [skewCentis, UInt32.toNat_div, UInt32.toNat_mul, rest, UInt16.toNat_toUInt32,
    UInt32.reduceToNat]
  rw [Nat.mod_eq_of_lt (by omega)]

theorem masterDownIntervalCentis_toNat (vr : VirtualRouter) :
    vr.masterDownIntervalCentis.toNat =
      3 * vr.masterAdverIntervalCentis.toNat +
        (256 - vr.priority.toNat) * vr.masterAdverIntervalCentis.toNat / 256 := by
  have priority := vr.priority.toNat_lt
  have interval := vr.masterAdverIntervalCentis.toNat_lt
  have small : (256 - vr.priority.toNat) * vr.masterAdverIntervalCentis.toNat ≤ 256 * 65536 :=
    Nat.mul_le_mul (by omega) (by omega)
  simp only [masterDownIntervalCentis, UInt32.toNat_add, UInt32.toNat_mul, skewCentis_toNat,
    UInt16.toNat_toUInt32, UInt32.reduceToNat]
  omega

/-! ## The simulation -/

/-- A router of the source and one of the standard stand alike. -/
structure Follows (s : Settings) (vr : VirtualRouter) (r : Router) : Prop where
  priority : vr.priority.toNat = s.priority
  preempt : vr.preempt = s.preemptMode
  advertInterval : vr.advertIntervalCentis.toNat = s.advertisementInterval
  masterInterval : vr.masterAdverIntervalCentis.toNat = r.masterAdverInterval
  state : vr.state = r.state
  untaught : r.state = .init → r.masterAdverInterval = s.advertisementInterval

variable {s : Settings} {vr : VirtualRouter} {r : Router}

theorem Follows.skewTime (follows : Follows s vr r) : vr.skewCentis.toNat = skewTime s r := by
  rw [skewCentis_toNat, follows.priority, follows.masterInterval, Rfc5798.skewTime]

theorem Follows.masterDownInterval (follows : Follows s vr r) :
    vr.masterDownIntervalCentis.toNat = masterDownInterval s r := by
  rw [masterDownIntervalCentis_toNat, follows.priority, follows.masterInterval,
    Rfc5798.masterDownInterval, Rfc5798.skewTime]

/-- Another state, in both. -/
theorem Follows.become (follows : Follows s vr r) {state : State} (started : state ≠ .init) :
    Follows s { vr with state } { r with state } :=
  { follows with
    state := rfl
    untaught := fun init => absurd init started }

/-- The interval of an advertisement, learned in both. -/
theorem Follows.learn (follows : Follows s vr r) {adverInterval : UInt16}
    (positive : adverInterval ≠ 0) {state : State} (started : state ≠ .init) :
    Follows s { vr with masterAdverIntervalCentis := max adverInterval 1, state }
      { r with masterAdverInterval := adverInterval.toNat, state } := by
  have least : max adverInterval 1 = adverInterval := by
    change (if adverInterval ≤ 1 then 1 else adverInterval) = adverInterval
    have nonzero := UInt16.toNat_inj.not.mpr positive
    simp only [UInt16.toNat_zero] at nonzero
    split
    · rename_i one
      have one : adverInterval.toNat ≤ 1 := UInt16.le_iff_toNat_le.mp one
      have same : adverInterval.toNat = (1 : UInt16).toNat := by
        simp only [UInt16.reduceToNat]
        omega
      exact (UInt16.toNat_inj.mp same).symm
    · rfl
  exact
    { priority := follows.priority
      preempt := follows.preempt
      advertInterval := follows.advertInterval
      masterInterval := by rw [least]
      state := rfl
      untaught := fun init => absurd init started }

/-- Both answer a turn with the same action and stand alike afterwards. -/
def Agrees (s : Settings) (answer : Action × VirtualRouter) (standard : Action × Router) : Prop :=
  answer.1 = standard.1 ∧ Follows s answer.2 standard.2

theorem Agrees.observed {answer : Action × VirtualRouter} {standard : Action × Router}
    (agrees : Agrees s answer standard) :
    ({ action := answer.1
       state := answer.2.state
       masterAdverInterval := answer.2.masterAdverIntervalCentis.toNat
       skewTime := answer.2.skewCentis.toNat
       masterDownInterval := answer.2.masterDownIntervalCentis.toNat } : Observation) =
      (observe s standard).1 := by
  obtain ⟨action, follows⟩ := agrees
  rw [observe, action, follows.state, follows.masterInterval, follows.skewTime,
    follows.masterDownInterval]

variable (ourAddr : Ipv4Addr)

theorem react_startup (follows : Follows s vr r) (waiting : r.state = .init) (healthy : Bool) :
    Agrees s (vr.react ourAddr (.event .startup healthy))
      (gated s r (.event .startup healthy)) := by
  obtain ⟨state, interval⟩ := r
  obtain rfl : state = .init := waiting
  obtain rfl : interval = s.advertisementInterval := follows.untaught rfl
  have timer : ({ vr with state := .backup } : VirtualRouter).masterDownIntervalCentis.toNat =
      masterDownInterval s ⟨.init, s.advertisementInterval⟩ := follows.masterDownInterval
  have backup := follows.become (by decide : State.backup ≠ .init)
  by_cases owner : vr.priority = 255
  · have standardOwner : s.priority = 255 := by
      rw [← follows.priority, owner]
      rfl
    cases healthy with
    | true =>
        have starts : vr.start true = { vr with state := .master } := by simp [start, owner]
        refine ⟨by simp [react, gated, step, starts, standardOwner], ?_⟩
        simpa [react, gated, step, starts, standardOwner] using
          follows.become (by decide : State.master ≠ .init)
    | false =>
        have starts : vr.start false = { vr with state := .backup } := by simp [start]
        refine ⟨by simpa [react, gated, heldBack, step, starts, standardOwner] using timer, ?_⟩
        simpa [react, gated, heldBack, step, starts, standardOwner] using backup
  · have standardOther : s.priority ≠ 255 := by
      rw [← follows.priority]
      exact fun same => owner (UInt8.toNat_inj.mp same)
    have starts : vr.start healthy = { vr with state := .backup } := by simp [start, owner]
    refine ⟨by simpa [react, gated, step, starts, standardOther] using timer, ?_⟩
    simpa [react, gated, step, starts, standardOther] using backup

theorem react_masterDown (follows : Follows s vr r) (healthy : Bool) :
    Agrees s (vr.react ourAddr (.event .masterDown healthy))
      (gated s r (.event .masterDown healthy)) := by
  have same := follows.state
  cases standing : r.state with
  | backup =>
      cases healthy with
      | true =>
          refine ⟨by simp [react, onMasterDownTimeout, gated, step, same, standing], ?_⟩
          simp only [react, onMasterDownTimeout, gated, step, same, standing, and_self, if_true,
            Bool.true_eq_false, and_false, if_false]
          exact
            { priority := follows.priority
              preempt := follows.preempt
              advertInterval := follows.advertInterval
              masterInterval := follows.advertInterval
              state := rfl
              untaught := fun _ => rfl }
      | false =>
          refine ⟨by simp [react, onMasterDownTimeout, gated, heldBack, step, standing], ?_⟩
          simpa [react, onMasterDownTimeout, gated, heldBack, step, standing] using follows
  | init =>
      refine ⟨by simp [react, onMasterDownTimeout, gated, step, same, standing], ?_⟩
      simpa [react, onMasterDownTimeout, gated, step, same, standing] using follows
  | master =>
      refine ⟨by simp [react, onMasterDownTimeout, gated, step, same, standing], ?_⟩
      simpa [react, onMasterDownTimeout, gated, step, same, standing] using follows

theorem react_health (follows : Follows s vr r) (healthy : Bool) :
    Agrees s (vr.react ourAddr (.health healthy)) (gated s r (.health healthy)) := by
  have same := follows.state
  by_cases resigns : r.state = .master ∧ healthy = false
  · refine ⟨by simp [react, onHealth, gated, same, resigns], ?_⟩
    simpa [react, onHealth, gated, same, resigns] using
      follows.become (by decide : State.backup ≠ .init)
  · refine ⟨by simp [react, onHealth, gated, same, resigns], ?_⟩
    simpa [react, onHealth, gated, same, resigns] using follows

/-- The comparisons of priorities are those of the standard. -/
theorem Follows.le_iff (follows : Follows s vr r) (peerPriority : UInt8) :
    vr.priority ≤ peerPriority ↔ s.priority ≤ peerPriority.toNat := by
  rw [UInt8.le_iff_toNat_le, follows.priority]

theorem Follows.outranked_iff (follows : Follows s vr r) (primary : s.primary = ourAddr)
    (peerPriority : UInt8) (sender : Ipv4Addr) :
    vr.Outranked ourAddr peerPriority sender ↔
      s.priority < peerPriority.toNat ∨
        (peerPriority.toNat = s.priority ∧ s.primary < sender) := by
  rw [Outranked, UInt8.lt_iff_toNat_lt, ← UInt8.toNat_inj, follows.priority, primary]

/-- An advertisement never makes a Master, so it is never held back. -/
theorem gated_advertisement (peerPriority : UInt8) (sender : Ipv4Addr) (adverInterval : UInt16)
    (healthy : Bool) :
    gated s r (.event (.advertisement peerPriority sender adverInterval) healthy) =
      step s r (.advertisement peerPriority sender adverInterval) := by
  rw [gated, if_neg]
  rintro ⟨takes, _⟩
  obtain ⟨state, interval⟩ := r
  cases state with
  | init => cases takes
  | backup =>
      simp only [step] at takes
      split_ifs at takes
  | master =>
      simp only [step] at takes
      split_ifs at takes

theorem react_advertisement (follows : Follows s vr r) (primary : s.primary = ourAddr)
    {adverInterval : UInt16} (positive : adverInterval ≠ 0) (peerPriority : UInt8)
    (sender : Ipv4Addr) (healthy : Bool) :
    Agrees s (vr.react ourAddr (.event (.advertisement peerPriority sender adverInterval) healthy))
      (gated s r (.event (.advertisement peerPriority sender adverInterval) healthy)) := by
  rw [gated_advertisement]
  obtain ⟨state, interval⟩ := r
  obtain rfl : vr.state = state := follows.state
  cases standing : vr.state with
  | init =>
      rw [standing] at follows
      simp only [react, onAdvertisement, step, standing]
      exact ⟨rfl, follows⟩
  | backup =>
      have learned := follows.learn positive (by rw [standing]; decide : vr.state ≠ .init)
      rw [standing] at follows learned
      have heeds : vr.preempt = false ∨ vr.priority ≤ peerPriority ↔
          s.preemptMode = false ∨ s.priority ≤ peerPriority.toNat := by
        rw [follows.preempt, follows.le_iff]
      simp only [react, onAdvertisement, step, standing, heeds]
      split_ifs with resigned accepts
      · exact ⟨congrArg Action.setTimer follows.skewTime, follows⟩
      · exact ⟨congrArg Action.setTimer learned.masterDownInterval, learned⟩
      · exact ⟨rfl, follows⟩
  | master =>
      have demoted := follows.learn positive (by decide : State.backup ≠ .init)
      rw [standing] at follows
      have outranked := follows.outranked_iff ourAddr primary peerPriority sender
      rw [Outranked] at outranked
      simp only [react, onAdvertisement, step, standing, outranked]
      split_ifs with resigned outranks
      · exact ⟨rfl, follows⟩
      · exact ⟨congrArg Action.giveWay demoted.masterDownInterval, demoted⟩
      · exact ⟨rfl, follows⟩

/-- Every turn: one step of the simulation. -/
theorem react_agrees (follows : Follows s vr r) (primary : s.primary = ourAddr) {turn : Turn}
    (admissible : TurnAdmissible r turn) : Agrees s (vr.react ourAddr turn) (gated s r turn) := by
  cases turn with
  | health healthy => exact react_health ourAddr follows healthy
  | event event healthy =>
      cases event with
      | startup => exact react_startup ourAddr follows (admissible.2 rfl) healthy
      | masterDown => exact react_masterDown ourAddr follows healthy
      | advertisement priority sender adverInterval =>
          exact react_advertisement ourAddr follows primary admissible.1 priority sender healthy

theorem simulates (primary : s.primary = ourAddr) :
    (machine ourAddr).Simulates (gatedMachine s) TurnAdmissible (Follows s) := by
  intro vr r turn follows admissible
  have agrees := react_agrees ourAddr follows primary admissible
  exact ⟨agrees.observed, agrees.2⟩

/-- With good health throughout, the standard itself is simulated. -/
theorem simulates_wellKept (primary : s.primary = ourAddr) :
    (wellKept (machine ourAddr)).Simulates (Rfc5798.machine s) Admissible (Follows s) := by
  intro vr r event follows admissible
  rw [← wellKept_gatedMachine]
  exact simulates ourAddr primary vr r (.event event true) follows admissible

end VirtualRouter

/-! ## The refinement -/

/-- What RFC 5798 calls the settings of an instance. -/
def settings (v : Vips.VrrpSpec) (ourAddr : Ipv4Addr) : Settings where
  priority := v.priority.toNat
  preemptMode := v.preempt
  advertisementInterval := v.advertIntervalSecs.toNat * 100
  primary := ourAddr

/-- The instance `run_loop` makes of its settings. -/
def instanceOf (v : Vips.VrrpSpec) : VirtualRouter :=
  VirtualRouter.new v.vrid v.priority v.preempt v.advertIntervalSecs

/-- A new instance stands where the standard begins. -/
theorem follows_new {spec : Vips.VipSpec} {c : Vips.Checked} {v : Vips.VrrpSpec}
    (checked : Vips.check spec = .ok c) (owned : spec.vrrp = some v) (ourAddr : Ipv4Addr) :
    VirtualRouter.Follows (settings v ourAddr) (instanceOf v) (initial (settings v ourAddr)) := by
  obtain ⟨_, _, _, accepted⟩ := Vips.vrrp_of_check checked owned
  have own := VirtualRouter.new_interval v.vrid v.priority v.preempt accepted.interval
  exact
    { priority := rfl
      preempt := rfl
      advertInterval := own
      masterInterval := own
      state := rfl
      untaught := fun _ => rfl }

/-- The machine of the source does what the standard's does. -/
structure Refines (v : Vips.VrrpSpec) (ourAddr : Ipv4Addr) : Prop where
  wellKept : ∀ events : List Event,
    (Rfc5798.machine (settings v ourAddr)).Admits Admissible (initial (settings v ourAddr)) events →
      (Rfc5798.wellKept (VirtualRouter.machine ourAddr)).outputs (instanceOf v) events =
        (Rfc5798.machine (settings v ourAddr)).outputs (initial (settings v ourAddr)) events
  gated : ∀ turns : List Turn,
    (gatedMachine (settings v ourAddr)).Admits TurnAdmissible (initial (settings v ourAddr)) turns →
      (VirtualRouter.machine ourAddr).outputs (instanceOf v) turns =
        (gatedMachine (settings v ourAddr)).outputs (initial (settings v ourAddr)) turns

/--
For all accepted settings the source refines the standard on every sequence of
events whose startups find it in Initialize; health only holds it back.
-/
theorem refines_rfc5798 {spec : Vips.VipSpec} {c : Vips.Checked} {v : Vips.VrrpSpec}
    (checked : Vips.check spec = .ok c) (owned : spec.vrrp = some v) (ourAddr : Ipv4Addr) :
    Refines v ourAddr where
  wellKept _ admitted :=
    (VirtualRouter.simulates_wellKept ourAddr rfl).outputs_eq (follows_new checked owned ourAddr)
      admitted
  gated _ admitted :=
    (VirtualRouter.simulates ourAddr rfl).outputs_eq (follows_new checked owned ourAddr) admitted

/-- An apiserver VIP with the default settings of VRRP. -/
def apiserver : Vips.VipSpec where
  address := "192.168.8.50"
  port := 6443
  vrrp := some { interface := "eth0" }

/-- A Master that is started once more goes back to Backup, which the standard knows nothing of. -/
theorem second_start_departs :
    ¬ ∀ (spec : Vips.VipSpec) (c : Vips.Checked) (v : Vips.VrrpSpec) (ourAddr : Ipv4Addr),
      Vips.check spec = .ok c → spec.vrrp = some v →
      ∀ events : List Event, (∀ event ∈ events, event.IntervalPos) →
        (Rfc5798.wellKept (VirtualRouter.machine ourAddr)).outputs (instanceOf v) events =
          (Rfc5798.machine (settings v ourAddr)).outputs (initial (settings v ourAddr)) events := by
  intro refines
  have checked : Vips.check apiserver = .ok
      { listen := ⟨.v4 ⟨192, 168, 8, 50⟩, 6443⟩, backends := [],
        vrrpVip := some ⟨192, 168, 8, 50⟩ } := by decide
  have same := refines apiserver _ _ ⟨192, 168, 8, 10⟩ checked rfl [.startup, .masterDown, .startup]
    (by decide)
  exact absurd same (by decide)

theorem refines_rfc5798_apiserver : Refines { interface := "eth0" } ⟨192, 168, 8, 10⟩ := by
  have checked : Vips.check apiserver = .ok
      { listen := ⟨.v4 ⟨192, 168, 8, 50⟩, 6443⟩, backends := [],
        vrrpVip := some ⟨192, 168, 8, 50⟩ } := by decide
  exact refines_rfc5798 checked rfl _

end StormLb.Vrrp
