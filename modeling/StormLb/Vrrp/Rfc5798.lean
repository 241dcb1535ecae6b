import StormLb.Effects.Machine
import StormLb.Vrrp.Router

/-!
# The virtual router of RFC 5798, section 6.4

The machine of the standard, over the events that reach it: its startup, its
Master_Down_Timer and advertisements.  Times are in centiseconds and divisions
are integer divisions.  `gated` is the same machine with one thing added: it is
Master only while it is healthy.
-/

namespace StormLb.Vrrp.Rfc5798

open StormLb.Net StormLb.Effects

/-- What a virtual router is configured with. -/
structure Settings where
  priority : Nat
  preemptMode : Bool
  advertisementInterval : Nat
  primary : Ipv4Addr

/-- Where a virtual router stands. -/
structure Router where
  state : State
  masterAdverInterval : Nat
  deriving DecidableEq, Repr

inductive Event where
  | startup
  /-- Master_Down_Timer fires. -/
  | masterDown
  | advertisement (priority : UInt8) (sender : Ipv4Addr) (adverInterval : UInt16)
  deriving DecidableEq, Repr

inductive Action where
  | discard
  /-- Set Master_Down_Timer. -/
  | setTimer (centis : Nat)
  /-- Send an advertisement now. -/
  | advertise
  /-- Become Master. -/
  | takeOver
  /-- Become Backup and set Master_Down_Timer. -/
  | giveWay (centis : Nat)
  /-- Become Backup for want of health. -/
  | resign
  deriving DecidableEq, Repr

/-- What an event leads to: an action, the state, and what the timers are set from. -/
structure Observation where
  action : Action
  state : State
  masterAdverInterval : Nat
  skewTime : Nat
  masterDownInterval : Nat
  deriving DecidableEq, Repr

variable (s : Settings)

def skewTime (r : Router) : Nat :=
  (256 - s.priority) * r.masterAdverInterval / 256

def masterDownInterval (r : Router) : Nat :=
  3 * r.masterAdverInterval + skewTime s r

def initial : Router where
  state := .init
  masterAdverInterval := s.advertisementInterval

/-- The transitions of section 6.4. -/
def step (r : Router) : Event → Action × Router
  | .startup =>
      match r.state with
      | .init =>
          let r := { r with masterAdverInterval := s.advertisementInterval }
          if s.priority = 255 then (.takeOver, { r with state := .master })
          else (.setTimer (masterDownInterval s r), { r with state := .backup })
      | _ => (.discard, r)
  | .masterDown =>
      match r.state with
      | .backup =>
          (.takeOver, { state := .master, masterAdverInterval := s.advertisementInterval })
      | _ => (.discard, r)
  | .advertisement priority sender adverInterval =>
      let learned := { r with masterAdverInterval := adverInterval.toNat }
      match r.state with
      | .init => (.discard, r)
      | .backup =>
          if priority = 0 then (.setTimer (skewTime s r), r)
          else if s.preemptMode = false ∨ s.priority ≤ priority.toNat then
            (.setTimer (masterDownInterval s learned), learned)
          else (.discard, r)
      | .master =>
          if priority = 0 then (.advertise, r)
          else if s.priority < priority.toNat ∨ (priority.toNat = s.priority ∧ s.primary < sender) then
            (.giveWay (masterDownInterval s learned), { learned with state := .backup })
          else (.discard, r)

/-- An event with the health at that moment, or a look at the health alone. -/
inductive Turn where
  | event (event : Event) (healthy : Bool)
  | health (healthy : Bool)
  deriving DecidableEq, Repr

/-- A router that may not become Master: from Initialize it goes to Backup, else it stays. -/
def heldBack (r : Router) : Action × Router :=
  match r.state with
  | .init =>
      let r := { r with masterAdverInterval := s.advertisementInterval }
      (.setTimer (masterDownInterval s r), { r with state := .backup })
  | _ => (.discard, r)

/-- The machine that is Master only while it is healthy. -/
def gated (r : Router) : Turn → Action × Router
  | .event event healthy =>
      if (step s r event).1 = .takeOver ∧ healthy = false then heldBack s r else step s r event
  | .health healthy =>
      if r.state = .master ∧ healthy = false then (.resign, { r with state := .backup })
      else (.discard, r)

/-! ## As machines -/

def observe (result : Action × Router) : Observation × Router :=
  ({ action := result.1
     state := result.2.state
     masterAdverInterval := result.2.masterAdverInterval
     skewTime := skewTime s result.2
     masterDownInterval := masterDownInterval s result.2 }, result.2)

def machine : Machine Router Event Observation :=
  fun r event => observe s (step s r event)

def gatedMachine : Machine Router Turn Observation :=
  fun r turn => observe s (gated s r turn)

/-- The interval of an advertisement is not zero. -/
def Event.IntervalPos : Event → Prop
  | .advertisement _ _ adverInterval => adverInterval ≠ 0
  | _ => True

/-- Startup comes in Initialize only, the state that waits for it. -/
def Admissible (r : Router) (event : Event) : Prop :=
  event.IntervalPos ∧ (event = .startup → r.state = .init)

/-- The same for a turn. -/
def TurnAdmissible (r : Router) : Turn → Prop
  | .event event _ => Admissible r event
  | .health _ => True

instance (event : Event) : Decidable event.IntervalPos :=
  match event with
  | .startup => .isTrue trivial
  | .masterDown => .isTrue trivial
  | .advertisement _ _ adverInterval => inferInstanceAs (Decidable (adverInterval ≠ 0))

instance (r : Router) (event : Event) : Decidable (Admissible r event) :=
  inferInstanceAs (Decidable (_ ∧ _))

/-- A machine whose health is always good. -/
def wellKept {σ ο : Type} (machine : Machine σ Turn ο) : Machine σ Event ο :=
  fun state event => machine state (.event event true)

/-- While the health is good, the gated machine is that of the standard. -/
theorem wellKept_gatedMachine : wellKept (gatedMachine s) = machine s := by
  funext r event
  simp [wellKept, gatedMachine, machine, gated]

end StormLb.Vrrp.Rfc5798
