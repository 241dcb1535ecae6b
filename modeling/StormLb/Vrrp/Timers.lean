import StormLb.Checked
import StormLb.Vrrp.Advertisement
import StormLb.Vrrp.Refinement

/-!
# The timers of a virtual router

Skew_Time and Master_Down_Interval are computed from an interval that a peer may
have advertised.  That interval stays within 12 bits and above zero, and with it
every timer and every number on the way to one; while the router is Master it is
the router's own.
-/

namespace StormLb.Vrrp

open StormLb.Net StormLb.Effects StormLb.Checked Rfc5798

namespace VirtualRouter

/-! ## The arithmetic, with its overflows -/

/-- `skew_centis`, each step checked. -/
def skewCentisChecked (vr : VirtualRouter) : Except Fault UInt32 := do
  let rest ← subU32 256 vr.priority.toUInt32
  let product ← mulU32 rest vr.masterAdverIntervalCentis.toUInt32
  return product / 256

/-- `master_down_interval_centis`, each step checked. -/
def masterDownIntervalCentisChecked (vr : VirtualRouter) : Except Fault UInt32 := do
  let intervals ← mulU32 3 vr.masterAdverIntervalCentis.toUInt32
  let skew ← vr.skewCentisChecked
  addU32 intervals skew

/-- `new`, each step checked. -/
def newChecked (vrid priority : UInt8) (preempt : Bool) (advertIntervalSecs : UInt64) :
    Except Fault VirtualRouter := do
  let hundredths ← mulU64 (max advertIntervalSecs 1) 100
  let centis ← narrowU16 (min hundredths 0x0fff)
  return { vrid, priority, preempt, advertIntervalCentis := centis,
           masterAdverIntervalCentis := centis, state := .init }

/-- The product of the skew is small, whatever the priority and the interval. -/
theorem skew_product_le (priority : UInt8) (interval : UInt16) :
    (256 - priority.toNat) * interval.toNat ≤ 256 * 65535 :=
  Nat.mul_le_mul (Nat.sub_le _ _) (Nat.le_of_lt_succ interval.toNat_lt)

theorem skewCentisChecked_eq (vr : VirtualRouter) : vr.skewCentisChecked = .ok vr.skewCentis := by
  have priority := vr.priority.toNat_lt
  have product := skew_product_le vr.priority vr.masterAdverIntervalCentis
  have below : vr.priority.toUInt32.toNat ≤ (256 : UInt32).toNat := by
    simp only [UInt8.toNat_toUInt32, UInt32.reduceToNat]
    omega
  have rest : (256 - vr.priority.toUInt32).toNat = 256 - vr.priority.toNat := by
    rw [UInt32.toNat_sub_of_le _ _ (UInt32.le_iff_toNat_le.mpr below)]
    simp
  have small : (256 - vr.priority.toUInt32).toNat * vr.masterAdverIntervalCentis.toUInt32.toNat <
      2 ^ 32 := by
    rw [rest, UInt16.toNat_toUInt32]
    omega
  rw [skewCentisChecked, subU32, if_pos below]
  change (mulU32 (256 - vr.priority.toUInt32) vr.masterAdverIntervalCentis.toUInt32 >>= _) = _
  rw [mulU32, if_pos small]
  rfl

theorem masterDownIntervalCentisChecked_eq (vr : VirtualRouter) :
    vr.masterDownIntervalCentisChecked = .ok vr.masterDownIntervalCentis := by
  have interval := vr.masterAdverIntervalCentis.toNat_lt
  have product := skew_product_le vr.priority vr.masterAdverIntervalCentis
  have small : (3 : UInt32).toNat * vr.masterAdverIntervalCentis.toUInt32.toNat < 2 ^ 32 := by
    simp only [UInt16.toNat_toUInt32, UInt32.reduceToNat]
    omega
  have fits : (3 * vr.masterAdverIntervalCentis.toUInt32).toNat + vr.skewCentis.toNat < 2 ^ 32 := by
    have skew : vr.skewCentis.toNat ≤ 65535 := by
      rw [skewCentis_toNat]
      omega
    rw [UInt32.toNat_mul, Nat.mod_eq_of_lt small]
    simp only [UInt16.toNat_toUInt32, UInt32.reduceToNat]
    omega
  rw [masterDownIntervalCentisChecked, mulU32, if_pos small]
  change (vr.skewCentisChecked >>= fun skew => addU32 _ skew) = _
  rw [skewCentisChecked_eq]
  exact if_pos fits

/-- An accepted interval makes a router without overflow. -/
theorem newChecked_eq (vrid priority : UInt8) (preempt : Bool) {advertIntervalSecs : UInt64}
    (accepted : advertIntervalSecs ≤ 40) :
    newChecked vrid priority preempt advertIntervalSecs =
      .ok (new vrid priority preempt advertIntervalSecs) := by
  have accepted := UInt64.le_iff_toNat_le.mp accepted
  have product : (max advertIntervalSecs 1).toNat * (100 : UInt64).toNat < 2 ^ 64 := by
    simp only [UInt64.toNat_max, UInt64.reduceToNat] at accepted ⊢
    omega
  have least : (min (max advertIntervalSecs 1 * 100) 0x0fff).toNat < 2 ^ 16 := by
    simp only [UInt64.toNat_min, UInt64.reduceToNat]
    omega
  rw [newChecked, mulU64, if_pos product]
  change (narrowU16 (min (max advertIntervalSecs 1 * 100) 0x0fff) >>= _) = _
  rw [narrowU16, if_pos least]
  rfl

/-! ## Ranges -/

/-- The learned interval is one that fits in 12 bits, and not zero. -/
def InRange (vr : VirtualRouter) : Prop :=
  1 ≤ vr.masterAdverIntervalCentis.toNat ∧ vr.masterAdverIntervalCentis.toNat ≤ 4095

/-- Priority 0 is for resigning only. -/
theorem skewCentis_lt {vr : VirtualRouter} (positive : vr.priority ≠ 0)
    (inRange : vr.InRange) : vr.skewCentis.toNat < vr.masterAdverIntervalCentis.toNat := by
  have nonzero := UInt8.toNat_inj.not.mpr positive
  rw [UInt8.toNat_zero] at nonzero
  have below : (256 - vr.priority.toNat) * vr.masterAdverIntervalCentis.toNat <
      256 * vr.masterAdverIntervalCentis.toNat :=
    Nat.mul_lt_mul_of_pos_right (by omega) inRange.1
  rw [skewCentis_toNat]
  exact Nat.div_lt_of_lt_mul below

theorem masterDownIntervalCentis_eq (vr : VirtualRouter) :
    vr.masterDownIntervalCentis.toNat =
      3 * vr.masterAdverIntervalCentis.toNat + vr.skewCentis.toNat := by
  rw [masterDownIntervalCentis_toNat, skewCentis_toNat]

/-- The higher of two routers that learned the same does not wait longer. -/
theorem skewCentis_antitone {vr other : VirtualRouter}
    (same : vr.masterAdverIntervalCentis = other.masterAdverIntervalCentis)
    (higher : vr.priority ≤ other.priority) : other.skewCentis.toNat ≤ vr.skewCentis.toNat := by
  have higher := UInt8.le_iff_toNat_le.mp higher
  rw [skewCentis_toNat, skewCentis_toNat, same]
  exact Nat.div_le_div_right (Nat.mul_le_mul_right _ (Nat.sub_le_sub_left higher 256))

/-- What every timer of a router is worth. -/
structure InOrder (vr : VirtualRouter) : Prop where
  inRange : vr.InRange
  skew : vr.skewCentis.toNat < vr.masterAdverIntervalCentis.toNat
  least : 3 * vr.masterAdverIntervalCentis.toNat ≤ vr.masterDownIntervalCentis.toNat
  most : vr.masterDownIntervalCentis.toNat < 4 * vr.masterAdverIntervalCentis.toNat
  skewFits : vr.skewCentisChecked = .ok vr.skewCentis
  downFits : vr.masterDownIntervalCentisChecked = .ok vr.masterDownIntervalCentis

theorem InOrder.of_inRange {vr : VirtualRouter} (positive : vr.priority ≠ 0)
    (inRange : vr.InRange) : vr.InOrder := by
  have skew := skewCentis_lt positive inRange
  have down := masterDownIntervalCentis_eq vr
  exact
    { inRange := inRange
      skew := skew
      least := by omega
      most := by omega
      skewFits := skewCentisChecked_eq vr
      downFits := masterDownIntervalCentisChecked_eq vr }

/-! ## One turn -/

/-- What `parse_advertisement` can return: an interval of 12 bits. -/
def Parsed : Turn → Prop
  | .event (.advertisement _ _ adverInterval) _ => adverInterval.toNat ≤ 4095
  | _ => True

instance (turn : Turn) : Decidable (Parsed turn) :=
  match turn with
  | .event (.advertisement _ _ adverInterval) _ =>
      inferInstanceAs (Decidable (adverInterval.toNat ≤ 4095))
  | .event .startup _ => .isTrue trivial
  | .event .masterDown _ => .isTrue trivial
  | .health _ => .isTrue trivial

theorem parsed_of_parseAdvertisement {datagram : List UInt8} {ourVrid : UInt8} {advert : Advert}
    (parsed : parseAdvertisement datagram ourVrid = some advert) (healthy : Bool) :
    Parsed (.event (.advertisement advert.priority advert.src advert.intervalCentis) healthy) := by
  simp only [parseAdvertisement] at parsed
  split_ifs at parsed
  obtain rfl := Option.some.inj parsed
  rw [Parsed, UInt16.toNat_and]
  exact Nat.and_le_right

/-- No `start` makes a Backup Master; `run_loop` calls it once, before its loop. -/
def StartsFresh (vr : VirtualRouter) (turn : Turn) : Prop :=
  turn = .event .startup true → vr.priority = 255 → vr.state ≠ .backup

/-- The timer an action sets, if it sets one. -/
def timerOf : Action → Option Nat
  | .setTimer centis => some centis
  | .giveWay centis => some centis
  | _ => none

/-- What a turn can do: the interval is kept, set back to the own one or learned. -/
inductive Turned (vr : VirtualRouter) (turn : Turn) : Action × VirtualRouter → Prop where
  | kept (state : State) (action : Action)
      (rises : state ≠ .backup → vr.state = .backup →
        turn = .event .startup true ∧ vr.priority = 255)
      (timer : ∀ centis, timerOf action = some centis →
        centis = vr.skewCentis.toNat ∨ centis = vr.masterDownIntervalCentis.toNat) :
      Turned vr turn (action, { vr with state })
  | own : Turned vr turn
      (.takeOver,
        { vr with state := .master, masterAdverIntervalCentis := vr.advertIntervalCentis })
  | learned (priority : UInt8) (sender : Ipv4Addr) (adverInterval : UInt16) (healthy : Bool)
      (action : Action) (learning : VirtualRouter)
      (heard : turn = .event (.advertisement priority sender adverInterval) healthy)
      (taught : learning =
        { vr with state := .backup, masterAdverIntervalCentis := max adverInterval 1 })
      (timer : ∀ centis, timerOf action = some centis →
        centis = learning.masterDownIntervalCentis.toNat) :
      Turned vr turn (action, learning)

variable (ourAddr : Ipv4Addr)

theorem turned_react (vr : VirtualRouter) (turn : Turn) :
    Turned vr turn (vr.react ourAddr turn) := by
  cases turn with
  | health healthy =>
      obtain ⟨_, _, resigns⟩ | ⟨_, stays⟩ := vr.onHealth_cases healthy
      · rw [react, resigns]
        exact .kept .backup .resign (fun rises => absurd rfl rises) (by simp [timerOf])
      · rw [react, stays]
        exact .kept vr.state .discard (fun rises waits => absurd waits rises) (by simp [timerOf])
  | event event healthy =>
      cases event with
      | startup =>
          refine .kept (vr.start healthy).state _ (fun rises _ => ?_) (fun centis timer => ?_)
          · by_cases owner : vr.priority = 255 ∧ healthy = true
            · exact ⟨by rw [owner.2], owner.1⟩
            · exact absurd (if_neg owner) rises
          · split_ifs at timer with master
            · cases timer
            · exact .inr (Option.some.inj timer).symm
      | masterDown =>
          by_cases takes : vr.state = .backup ∧ healthy = true
          · rw [react, onMasterDownTimeout, if_pos takes]
            exact .own
          · rw [react, onMasterDownTimeout, if_neg takes]
            exact .kept vr.state .discard (fun rises waits => absurd waits rises) (by simp [timerOf])
      | advertisement priority sender adverInterval =>
          have ignored : Turned vr (.event (.advertisement priority sender adverInterval) healthy)
              (.discard, vr) :=
            .kept vr.state .discard (fun rises waits => absurd waits rises) (by simp [timerOf])
          cases standing : vr.state with
          | init =>
              simpa only [react, onAdvertisement, standing, OnAdvert.action] using ignored
          | backup =>
              simp only [react, onAdvertisement, standing]
              split_ifs with resigned heeds
              · exact .kept vr.state _ (fun rises waits => absurd waits rises)
                  (fun centis timer => .inl (Option.some.inj timer).symm)
              · refine .learned priority sender adverInterval healthy _ _ rfl ?_
                  (fun centis timer => (Option.some.inj timer).symm)
                rw [← standing]
              · exact ignored
          | master =>
              simp only [react, onAdvertisement, standing]
              split_ifs with resigned outranked
              · exact .kept vr.state .advertise (fun rises waits => absurd waits rises)
                  (by simp [timerOf])
              · exact .learned priority sender adverInterval healthy _ _ rfl rfl
                  (fun centis timer => (Option.some.inj timer).symm)
              · exact ignored

/-- A router with its own settings, and an interval in range. -/
structure Timed (priority : UInt8) (own : UInt16) (vr : VirtualRouter) : Prop where
  priority : vr.priority = priority
  own : vr.advertIntervalCentis = own
  inRange : vr.InRange

/-- While it has not started, and while it is Master, it goes by its own interval. -/
def GoesByOwn (vr : VirtualRouter) : Prop :=
  vr.state ≠ .backup → vr.masterAdverIntervalCentis = vr.advertIntervalCentis

variable {priority : UInt8} {own : UInt16} {vr : VirtualRouter} {turn : Turn}
  {answer : Action × VirtualRouter}

/-- A learned interval is in range, zero being taken for one. -/
theorem max_one_inRange {adverInterval : UInt16} (most : adverInterval.toNat ≤ 4095) :
    1 ≤ (max adverInterval 1).toNat ∧ (max adverInterval 1).toNat ≤ 4095 := by
  rw [UInt16.toNat_max, UInt16.toNat_one]
  omega

theorem Turned.timed (turned : vr.Turned turn answer) (bounds : 1 ≤ own.toNat ∧ own.toNat ≤ 4095)
    (timed : Timed priority own vr) (parsed : Parsed turn) : Timed priority own answer.2 := by
  cases turned with
  | kept => exact ⟨timed.priority, timed.own, timed.inRange⟩
  | own =>
      refine ⟨timed.priority, timed.own, ?_⟩
      rw [InRange, timed.own]
      exact bounds
  | learned _ _ _ _ _ _ heard taught =>
      obtain rfl := heard
      obtain rfl := taught
      exact ⟨timed.priority, timed.own, max_one_inRange parsed⟩

theorem Turned.timer_le (turned : vr.Turned turn answer) (positive : priority ≠ 0)
    (timed : Timed priority own answer.2) {centis : Nat} (timer : timerOf answer.1 = some centis) :
    centis ≤ 16380 := by
  have order := InOrder.of_inRange (timed.priority ▸ positive) timed.inRange
  have most := timed.inRange.2
  have skew := order.skew
  have down := order.most
  suffices centis = answer.2.skewCentis.toNat ∨ centis = answer.2.masterDownIntervalCentis.toNat by
    omega
  cases turned with
  | kept _ _ _ set => exact set centis timer
  | own => cases timer
  | learned _ _ _ _ _ _ _ _ set => exact .inr (set centis timer)

theorem Turned.goesByOwn (turned : vr.Turned turn answer) (own : vr.GoesByOwn)
    (fresh : vr.StartsFresh turn) : answer.2.GoesByOwn := by
  cases turned with
  | kept _ _ rises =>
      intro rising
      refine own fun waits => ?_
      obtain ⟨started, owner⟩ := rises rising waits
      exact fresh started owner waits
  | own => exact fun _ => rfl
  | learned _ _ _ _ _ _ _ taught =>
      obtain rfl := taught
      exact fun rising => absurd rfl rising

end VirtualRouter

/-! ## Every run -/

/-- The timers of every run from new, and of any two routers that learned the same. -/
structure TimersInRange (v : Vips.VrrpSpec) (ourAddr : Ipv4Addr) : Prop where
  created : VirtualRouter.newChecked v.vrid v.priority v.preempt v.advertIntervalSecs =
    .ok (instanceOf v)
  inOrder : ∀ turns : List Turn, (∀ turn ∈ turns, VirtualRouter.Parsed turn) →
    ((VirtualRouter.machine ourAddr).final (instanceOf v) turns).InOrder
  returned : ∀ turns : List Turn, (∀ turn ∈ turns, VirtualRouter.Parsed turn) →
    ∀ observation ∈ (VirtualRouter.machine ourAddr).outputs (instanceOf v) turns,
      ∀ centis, VirtualRouter.timerOf observation.action = some centis → centis ≤ 16380
  master : ∀ turns : List Turn, (∀ turn ∈ turns, VirtualRouter.Parsed turn) →
    (VirtualRouter.machine ourAddr).Admits VirtualRouter.StartsFresh (instanceOf v) turns →
      ((VirtualRouter.machine ourAddr).final (instanceOf v) turns).state = .master →
        ((VirtualRouter.machine ourAddr).final (instanceOf v) turns).masterAdverIntervalCentis =
          (instanceOf v).advertIntervalCentis
  ordered : ∀ vr other : VirtualRouter,
    vr.masterAdverIntervalCentis = other.masterAdverIntervalCentis → vr.priority ≤ other.priority →
      other.skewCentis.toNat ≤ vr.skewCentis.toNat ∧
        other.masterDownIntervalCentis.toNat ≤ vr.masterDownIntervalCentis.toNat

open VirtualRouter

/-- A new router of an accepted spec is timed by its own settings. -/
theorem timed_instanceOf {v : Vips.VrrpSpec} (accepted : v.Accepted) :
    (1 ≤ (instanceOf v).advertIntervalCentis.toNat ∧
      (instanceOf v).advertIntervalCentis.toNat ≤ 4095) ∧
    Timed v.priority (instanceOf v).advertIntervalCentis (instanceOf v) := by
  have own := new_interval v.vrid v.priority v.preempt accepted.interval
  have most := UInt64.le_iff_toNat_le.mp accepted.interval.2
  have least := UInt64.toNat_inj.not.mpr accepted.interval.1
  have bounds : 1 ≤ (instanceOf v).advertIntervalCentis.toNat ∧
      (instanceOf v).advertIntervalCentis.toNat ≤ 4095 := by
    rw [instanceOf, own]
    simp only [UInt64.reduceToNat, UInt64.toNat_zero] at most least
    omega
  exact ⟨bounds, rfl, rfl, bounds⟩

/--
For all accepted settings the timers stay in range on every sequence of turns
with intervals of 12 bits, and a Master goes by its own interval as long as no
`start` made it one out of Backup.
-/
theorem timers_in_range {spec : Vips.VipSpec} {c : Vips.Checked} {v : Vips.VrrpSpec}
    (checked : Vips.check spec = .ok c) (owned : spec.vrrp = some v) (ourAddr : Ipv4Addr) :
    TimersInRange v ourAddr := by
  obtain ⟨_, _, _, accepted⟩ := Vips.vrrp_of_check checked owned
  obtain ⟨bounds, timed⟩ := timed_instanceOf accepted
  have step (vr : VirtualRouter) (turn : Turn)
      (timed : Timed v.priority (instanceOf v).advertIntervalCentis vr) (parsed : Parsed turn) :
      Timed v.priority (instanceOf v).advertIntervalCentis (vr.react ourAddr turn).2 :=
    (turned_react ourAddr vr turn).timed bounds timed parsed
  constructor
  case created => exact newChecked_eq _ _ _ accepted.interval.2
  case inOrder =>
    intro turns parsed
    have final := Machine.final_of_kept (machine ourAddr) step timed
      (Machine.admits_of_forall_mem _ _ parsed)
    exact .of_inRange (final.priority ▸ accepted.priority) final.inRange
  case returned =>
    intro turns parsed
    refine Machine.forall_mem_outputs (machine ourAddr) ?_ timed
      (Machine.admits_of_forall_mem _ _ parsed)
    intro vr turn timed parsed
    have next := step vr turn timed parsed
    exact ⟨fun centis timer => (turned_react ourAddr vr turn).timer_le accepted.priority next timer,
      next⟩
  case master =>
    intro turns parsed fresh master
    have goesByOwn := Machine.final_of_kept (machine ourAddr)
      (fun vr turn own fresh => (turned_react ourAddr vr turn).goesByOwn own fresh)
      (fun _ => rfl : (instanceOf v).GoesByOwn) fresh
    have final := Machine.final_of_kept (machine ourAddr) step timed
      (Machine.admits_of_forall_mem _ _ parsed)
    rw [goesByOwn (by rw [master]; decide), final.own]
  case ordered =>
    intro vr other same higher
    have skew := skewCentis_antitone same higher
    refine ⟨skew, ?_⟩
    rw [masterDownIntervalCentis_eq, masterDownIntervalCentis_eq, same]
    exact Nat.add_le_add_left skew _

/-- An address owner, started once without health, taught by a peer and started again. -/
theorem restarted_owner_departs :
    ¬ ∀ (spec : Vips.VipSpec) (c : Vips.Checked) (v : Vips.VrrpSpec) (ourAddr : Ipv4Addr),
      Vips.check spec = .ok c → spec.vrrp = some v →
      ∀ turns : List Turn, (∀ turn ∈ turns, Parsed turn) →
        ((machine ourAddr).final (instanceOf v) turns).state = .master →
          ((machine ourAddr).final (instanceOf v) turns).masterAdverIntervalCentis =
            (instanceOf v).advertIntervalCentis := by
  intro goesByOwn
  have checked : Vips.check { apiserver with vrrp := some { interface := "eth0", priority := 255 } } =
      .ok { listen := ⟨.v4 ⟨192, 168, 8, 50⟩, 6443⟩, backends := [],
            vrrpVip := some ⟨192, 168, 8, 50⟩ } := by decide
  have same := goesByOwn _ _ _ ⟨192, 168, 8, 10⟩ checked rfl
    [.event .startup false, .event (.advertisement 255 ⟨192, 168, 8, 11⟩ 300) false,
      .event .startup true] (by decide) (by decide)
  exact absurd same (by decide)

theorem timers_in_range_apiserver : TimersInRange { interface := "eth0" } ⟨192, 168, 8, 10⟩ := by
  have checked : Vips.check apiserver = .ok
      { listen := ⟨.v4 ⟨192, 168, 8, 50⟩, 6443⟩, backends := [],
        vrrpVip := some ⟨192, 168, 8, 50⟩ } := by decide
  exact timers_in_range checked rfl _

end StormLb.Vrrp
