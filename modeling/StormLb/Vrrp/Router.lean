import StormLb.Net.Addr

/-!
# The VRRP virtual router

The state machine alone: which node holds the virtual address and when it goes
from Master to Backup and back.  Each event returns what the caller must do,
together with the router it leaves behind.
-/

namespace StormLb.Vrrp

open StormLb.Net

inductive State where
  | init
  | backup
  | master
  deriving DecidableEq, Repr

/-- What the caller does after an advertisement arrives. -/
inductive OnAdvert where
  | ignore
  /-- Backup: restart the master-down timer at this many centiseconds. -/
  | resetTimer (centis : UInt32)
  /-- Master: advertise now, a peer resigned. -/
  | advertiseNow
  /-- Master to Backup: release the address, restart the master-down timer. -/
  | demoted (centis : UInt32)
  deriving DecidableEq, Repr

/-- One VRRP virtual router instance. -/
structure VirtualRouter where
  vrid : UInt8
  priority : UInt8
  preempt : Bool
  advertIntervalCentis : UInt16
  /-- The Master's advertisement interval, learned while Backup. -/
  masterAdverIntervalCentis : UInt16
  state : State
  deriving DecidableEq, Repr

namespace VirtualRouter

def new (vrid priority : UInt8) (preempt : Bool) (advertIntervalSecs : UInt64) : VirtualRouter :=
  let centis := (min (max advertIntervalSecs 1 * 100) 0x0fff).toUInt16
  { vrid, priority, preempt, advertIntervalCentis := centis,
    masterAdverIntervalCentis := centis, state := .init }

/-- An interval of 1 to 40 s is kept, in hundredths. -/
theorem new_interval (vrid priority : UInt8) (preempt : Bool) {advertIntervalSecs : UInt64}
    (accepted : advertIntervalSecs ≠ 0 ∧ advertIntervalSecs ≤ 40) :
    (new vrid priority preempt advertIntervalSecs).advertIntervalCentis.toNat =
      advertIntervalSecs.toNat * 100 := by
  obtain ⟨least, most⟩ := accepted
  have positive : 1 ≤ advertIntervalSecs.toNat := by
    have nonzero := UInt64.toNat_inj.not.mpr least
    simp only [UInt64.toNat_zero] at nonzero
    omega
  have bounded : advertIntervalSecs.toNat ≤ 40 := UInt64.le_iff_toNat_le.mp most
  have atLeast : max advertIntervalSecs 1 = advertIntervalSecs := by
    change (if advertIntervalSecs ≤ 1 then 1 else advertIntervalSecs) = advertIntervalSecs
    split
    · rename_i one
      have one : advertIntervalSecs.toNat ≤ 1 := UInt64.le_iff_toNat_le.mp one
      exact UInt64.toNat_inj.mp (Nat.le_antisymm positive one)
    · rfl
  have hundredths : (advertIntervalSecs * 100).toNat = advertIntervalSecs.toNat * 100 := by
    simp only [UInt64.toNat_mul, UInt64.reduceToNat]
    omega
  have small : min (advertIntervalSecs * 100) 0x0fff = advertIntervalSecs * 100 := by
    refine if_pos (UInt64.le_iff_toNat_le.mpr ?_)
    simp only [hundredths, UInt64.reduceToNat]
    omega
  simp only [new, atLeast, small, UInt64.toNat_toUInt16, hundredths]
  omega

/-- Skew_Time. -/
def skewCentis (vr : VirtualRouter) : UInt32 :=
  ((256 - vr.priority.toUInt32) * vr.masterAdverIntervalCentis.toUInt32) / 256

/-- Master_Down_Interval. -/
def masterDownIntervalCentis (vr : VirtualRouter) : UInt32 :=
  3 * vr.masterAdverIntervalCentis.toUInt32 + vr.skewCentis

/-- Startup: the address owner goes straight to Master if it can serve. -/
def start (vr : VirtualRouter) (healthy : Bool) : VirtualRouter :=
  { vr with state := if vr.priority = 255 ∧ healthy = true then .master else .backup }

/-- The master-down timer ran out while Backup; `true` if the router takes over. -/
def onMasterDownTimeout (vr : VirtualRouter) (healthy : Bool) : Bool × VirtualRouter :=
  if vr.state = .backup ∧ healthy = true then
    (true, { vr with state := .master, masterAdverIntervalCentis := vr.advertIntervalCentis })
  else (false, vr)

/-- Backend health, checked every turn; `true` if a Master must resign now. -/
def onHealth (vr : VirtualRouter) (healthy : Bool) : Bool × VirtualRouter :=
  if vr.state = .master ∧ healthy = false then (true, { vr with state := .backup })
  else (false, vr)

/-- An advertisement from a peer. -/
def onAdvertisement (vr : VirtualRouter) (peerPriority : UInt8) (peerAddr ourAddr : Ipv4Addr)
    (peerIntervalCentis : UInt16) : OnAdvert × VirtualRouter :=
  match vr.state with
  | .backup =>
      if peerPriority = 0 then (.resetTimer vr.skewCentis, vr)
      else if vr.preempt = false ∨ vr.priority ≤ peerPriority then
        let learned := { vr with masterAdverIntervalCentis := max peerIntervalCentis 1 }
        (.resetTimer learned.masterDownIntervalCentis, learned)
      else (.ignore, vr)
  | .master =>
      if peerPriority = 0 then (.advertiseNow, vr)
      else if vr.priority < peerPriority ∨ (peerPriority = vr.priority ∧ ourAddr < peerAddr) then
        let demoted :=
          { vr with state := .backup, masterAdverIntervalCentis := max peerIntervalCentis 1 }
        (.demoted demoted.masterDownIntervalCentis, demoted)
      else (.ignore, vr)
  | .init => (.ignore, vr)

/-! ## What each event does to the state -/

/-- A router that starts is Master or Backup. -/
theorem start_state (vr : VirtualRouter) (healthy : Bool) :
    (vr.start healthy).state = .master ∧ healthy = true ∨
      (vr.start healthy).state = .backup := by
  simp only [start]
  split
  · rename_i owner
    exact .inl ⟨rfl, owner.2⟩
  · exact .inr rfl

/-- A Master resigns exactly when it is not healthy; nothing else changes the router. -/
theorem onHealth_cases (vr : VirtualRouter) (healthy : Bool) :
    (vr.state = .master ∧ healthy = false ∧
      vr.onHealth healthy = (true, { vr with state := .backup })) ∨
    ((vr.state = .master → healthy = true) ∧ vr.onHealth healthy = (false, vr)) := by
  by_cases resigns : vr.state = .master ∧ healthy = false
  · exact .inl ⟨resigns.1, resigns.2, by rw [onHealth, if_pos resigns]⟩
  · refine .inr ⟨fun master => ?_, by rw [onHealth, if_neg resigns]⟩
    cases healthy with
    | true => rfl
    | false => exact absurd ⟨master, rfl⟩ resigns

/-- The timer makes a router Master exactly when it is a healthy Backup. -/
theorem onMasterDownTimeout_cases (vr : VirtualRouter) (healthy : Bool) :
    (vr.state = .backup ∧ healthy = true ∧ ∃ taken, vr.onMasterDownTimeout healthy = (true, taken) ∧
      taken.state = .master) ∨
    vr.onMasterDownTimeout healthy = (false, vr) := by
  by_cases takes : vr.state = .backup ∧ healthy = true
  · exact .inl ⟨takes.1, takes.2, _, by rw [onMasterDownTimeout, if_pos takes], rfl⟩
  · exact .inr (by rw [onMasterDownTimeout, if_neg takes])

/--
An advertisement demotes a Master, tells a Master to advertise, resets a
Backup's timer, or is ignored; only a demotion changes the state.
-/
theorem onAdvertisement_cases (vr : VirtualRouter) (peerPriority : UInt8)
    (peerAddr ourAddr : Ipv4Addr) (peerIntervalCentis : UInt16) :
    let result := vr.onAdvertisement peerPriority peerAddr ourAddr peerIntervalCentis
    (∃ centis, result.1 = .demoted centis ∧ vr.state = .master ∧ result.2.state = .backup) ∨
    (result.1 = .ignore ∧ result.2 = vr) ∨
    (∃ centis, result.1 = .resetTimer centis ∧ vr.state = .backup ∧ result.2.state = .backup) ∨
    (result.1 = .advertiseNow ∧ vr.state = .master ∧ result.2 = vr) := by
  intro result
  simp only [result, onAdvertisement]
  cases standing : vr.state with
  | init => simp
  | backup =>
      dsimp only
      split_ifs
      · simp [standing]
      · simp
      · simp
  | master =>
      dsimp only
      split_ifs
      · simp
      · simp
      · simp

/-- A peer of this priority and address takes the address from a Master that holds it. -/
def Outranked (vr : VirtualRouter) (ourAddr : Ipv4Addr) (peerPriority : UInt8)
    (peerAddr : Ipv4Addr) : Prop :=
  vr.priority < peerPriority ∨ (peerPriority = vr.priority ∧ ourAddr < peerAddr)

/-- A Master stays Master unless a nonzero priority outranks it; nobody becomes one. -/
theorem onAdvertisement_master_iff (vr : VirtualRouter) (peerPriority : UInt8)
    (peerAddr ourAddr : Ipv4Addr) (peerIntervalCentis : UInt16) :
    (vr.onAdvertisement peerPriority peerAddr ourAddr peerIntervalCentis).2.state = .master ↔
      vr.state = .master ∧ (peerPriority ≠ 0 → ¬ vr.Outranked ourAddr peerPriority peerAddr) := by
  simp only [onAdvertisement, Outranked]
  cases standing : vr.state with
  | init => simp [standing]
  | backup =>
      dsimp only
      split_ifs <;> simp [standing]
  | master =>
      dsimp only
      by_cases resigned : peerPriority = 0
      · simp [resigned, standing]
      · by_cases outranked :
          vr.priority < peerPriority ∨ (peerPriority = vr.priority ∧ ourAddr < peerAddr)
        · simp [resigned, outranked]
        · simp [resigned, outranked, standing]

/-- Nothing but the state and the learned interval ever changes. -/
theorem onAdvertisement_priority (vr : VirtualRouter) (peerPriority : UInt8)
    (peerAddr ourAddr : Ipv4Addr) (peerIntervalCentis : UInt16) :
    (vr.onAdvertisement peerPriority peerAddr ourAddr peerIntervalCentis).2.priority =
      vr.priority := by
  simp only [onAdvertisement]
  cases vr.state with
  | init => rfl
  | backup =>
      dsimp only
      split_ifs <;> rfl
  | master =>
      dsimp only
      split_ifs <;> rfl

-- Every 3 s from a Master of priority 200: 3 * 300 + (156 * 300) / 256.
example : let vr := (new 51 100 true 1).start true
    (vr.onAdvertisement 200 ⟨10, 0, 0, 1⟩ ⟨10, 0, 0, 2⟩ 300).1 = .resetTimer 1082 := by decide

end VirtualRouter

end StormLb.Vrrp
