import StormLb.Vrrp.Ownership

/-!
# Handover from a stopped loop to the one that replaces it

When a change touches a VIP's `vrrp` or address, `Registry::put` stops the old
instance's handle and starts the new instance at once; nobody waits for the old
loop to return.  Both loops claim and release the same address on the same
interface.
-/

namespace StormLb.Vrrp

open StormLb.Net StormLb.Effects

/-- The loop that runs until the change, and the loop the change starts. -/
inductive Side where
  | old
  | new
  deriving DecidableEq, Repr

/-- A change of a VIP's VRRP settings that keeps its address and interface. -/
structure Handover where
  params : Side → Params
  vip : Ipv4Addr
  iface : String
  sameVip : ∀ side, (params side).vip = vip
  sameIface : ∀ side, (params side).iface = iface
  priorityPos : ∀ side, 0 < (params side).priority
  changed : params .old ≠ params .new

/-- The interface addresses, as (interface, address), and the two instances' handles. -/
structure Node where
  addresses : Finset (String × String)
  stop : Side → Bool
  started : Side → Bool

/-- What a started instance may be answered; the controller succeeds. -/
def Node.serve (side : Side) (node : Node) (call : Call) (answer : call.Ans) : Option Node :=
  if node.started side then
    match call, answer with
    | ⟨_, .claim vip iface⟩, true =>
        some { node with addresses := insert (iface, vip) node.addresses }
    | ⟨_, .claim ..⟩, false => none
    | ⟨_, .release vip iface⟩, true =>
        some { node with addresses := node.addresses.erase (iface, vip) }
    | ⟨_, .release ..⟩, false => none
    | ⟨_, .stopLoad⟩, stop => if stop = node.stop side then some node else none
    | _, _ => some node
  else none

/-- Where both loops stand, what they did, and the node. -/
abbrev Moment := Config Side Call Call.Ans Locals Exit Node

/-- `Registry::put` stops the old handle and starts the new instance. -/
def Node.put (node : Node) : Node :=
  { node with
    stop := Function.update node.stop .old true
    started := Function.update node.started .new true }

namespace Handover

variable (h : Handover)

def threads : Threads Side Call Call.Ans Locals Exit Node where
  first side := (h.params side).startRun
  body side := (h.params side).turnRun
  serves := Node.serve
  drifts node after := after = node.put

/-- The old instance runs, the new one does not exist yet. -/
def node (addresses : Finset (String × String)) : Node where
  addresses := addresses
  stop := fun _ => false
  started := fun side => side = .old

def start (addresses : Finset (String × String)) : Moment :=
  h.threads.initial (node addresses)

/-- Once the old loop has returned, the new one waits as Master only with the address present. -/
def KeepsAddress (config : Moment) : Prop :=
  (∃ exit, config.threads .old = .done (.inr exit)) →
    ∀ l next, config.threads .new = .call ⟨some l, .recvFrom⟩ next → l.vr.state = .master →
      (h.iface, h.vip.display) ∈ config.world.addresses

end Handover

/-- The old loop releases only while the new one does not hold the address. -/
def NoLateRelease (who : Option Side)
    (config : Moment) : Prop :=
  who = some .old → releasesNext (config.threads .old) = true → held (config.histories .new) = false

instance (who : Option Side) (config : Moment) :
    Decidable (NoLateRelease who config) :=
  inferInstanceAs (Decidable (_ → _ → _))

/-- What a served call does to the addresses. -/
theorem Node.controls {side : Side} {node after : Node} {call : Call} {answer : call.Ans}
    (served : node.serve side call answer = some after) :
    Controls call node.addresses after.addresses := by
  obtain ⟨l, op⟩ := call
  unfold Node.serve at served
  split at served
  · cases op with
    | claim vip iface =>
        cases answer with
        | false => cases served
        | true =>
            cases served
            exact .claimed vip iface rfl
    | release vip iface =>
        cases answer with
        | false => cases served
        | true =>
            cases served
            exact .released vip iface rfl
    | stopLoad =>
        dsimp only at served
        split at served
        · cases served
          exact .untouched rfl
        · cases served
    | _ =>
        cases served
        exact .untouched rfl
  · cases served

namespace Handover

variable (h : Handover)

/-- What the new loop holds is there. -/
def HeldIsPresent (config : Moment) : Prop :=
  held (config.histories .new) = true → (h.iface, h.vip.display) ∈ config.world.addresses

/-- Both loops, as loops that share the node's addresses. -/
def owners : Owners Side Node where
  params := h.params
  serves := Node.serve
  drifts node after := after = node.put
  addresses := Node.addresses
  controls := Node.controls
  drifted moved := by
    rw [moved]
    rfl

theorem owned_eq (side : Side) : (h.params side).owned = (h.iface, h.vip.display) := by
  rw [Params.owned, h.sameVip, h.sameIface]

/-- Only a late release could take the address away from the new loop. -/
theorem spares_new (addresses : Finset (String × String)) :
    h.owners.Spares NoLateRelease (node addresses) .new := by
  intro config side _ admitted other _ releases
  cases side with
  | old => exact admitted rfl releases
  | new => exact absurd rfl other

variable {h} {addresses : Finset (String × String)} {config : Moment}

/-- While the old loop makes no late release, what the new loop holds stays there. -/
theorem heldIsPresent_of_reaches
    (reached : Threads.Reaches h.threads NoLateRelease (h.start addresses) config) :
    h.HeldIsPresent config := by
  intro holds
  rw [← h.owned_eq .new]
  exact Owners.heldIsPresent (h.spares_new addresses) reached holds

/--
In every run in which the old loop makes no late release, the new loop waits as
Master only while the address is there.
-/
theorem keepsAddress_of_noLateRelease
    (reached : Threads.Reaches h.threads NoLateRelease (h.start addresses) config) :
    h.KeepsAddress config := by
  intro _ l next waiting master
  have lawful := Owners.keeps (o := h.owners) reached .new
  rw [waiting] at lawful
  obtain ⟨_, same, waits⟩ := lawful.1.1
  cases same
  exact heldIsPresent_of_reaches reached (waits.holds.mpr master)

/-! ## A late release -/

/-- The owner of the address gives up preemption. -/
def ownerStopsPreempting : Handover where
  params side := { owner with preempt := side = .old }
  vip := owner.vip
  iface := owner.iface
  sameVip := fun _ => rfl
  sameIface := fun _ => rfl
  priorityPos := fun _ => show 0 < owner.priority by decide
  changed := by decide

/-- Healthy at time 0, with nothing received; `stop` is read from the handle. -/
def quietSegment (side : Side) (node : Node) (call : Call) : call.Ans :=
  match call with
  | ⟨_, .stopLoad⟩ => node.stop side
  | call => answers .timedOut [] call

/-- The old loop comes to wait as Master, the change is made, and the schedule goes on. -/
def afterChange (allowed : Option Side → Moment → Prop)
    [∀ who config, Decidable (allowed who config)] (schedule : List Side) : Moment :=
  let before := ownerStopsPreempting.threads.playSchedule allowed quietSegment
    (ownerStopsPreempting.start ∅) (List.replicate 13 .old)
  ownerStopsPreempting.threads.playSchedule allowed quietSegment
    { before with world := before.world.put } schedule

theorem reaches_afterChange (allowed : Option Side → Moment → Prop)
    [∀ who config, Decidable (allowed who config)] (schedule : List Side)
    (drifts : ∀ config, allowed none config) :
    Threads.Reaches ownerStopsPreempting.threads allowed (ownerStopsPreempting.start ∅)
      (afterChange allowed schedule) := by
  unfold afterChange
  refine Threads.Reaches.playSchedule _ _ (.step ?_ (drifts _) (.drift rfl))
  exact Threads.Reaches.playSchedule _ _ .start

/-- The new loop claims and waits; only then the old one sees its stop flag and releases. -/
def lateRelease : List Side :=
  List.replicate 13 .new ++ List.replicate 10 .old

/-- The old loop sees its stop flag and returns; only then the new one starts. -/
def earlyRelease : List Side :=
  List.replicate 10 .old ++ List.replicate 13 .new

set_option maxRecDepth 4000 in
theorem handover_loses_address :
    ¬ ∀ (h : Handover) (addresses : Finset (String × String)) (config : Moment),
      Threads.Reaches h.threads Threads.anySchedule (h.start addresses) config →
        h.KeepsAddress config := by
  intro keeps
  have reached := reaches_afterChange Threads.anySchedule lateRelease fun _ => trivial
  have present := keeps _ _ _ reached ⟨_, rfl⟩ _ _ rfl rfl
  exact absurd present (by decide)

set_option maxRecDepth 4000 in
theorem keepsAddress_earlyRelease :
    (∃ exit, (afterChange NoLateRelease earlyRelease).threads .old = .done (.inr exit)) ∧
    (∃ l next, (afterChange NoLateRelease earlyRelease).threads .new =
      .call ⟨some l, .recvFrom⟩ next ∧ l.vr.state = .master) ∧
    ownerStopsPreempting.KeepsAddress (afterChange NoLateRelease earlyRelease) :=
  ⟨⟨_, rfl⟩, ⟨_, _, rfl, rfl⟩, keepsAddress_of_noLateRelease
    (reaches_afterChange NoLateRelease earlyRelease fun _ who => by cases who)⟩

end Handover

end StormLb.Vrrp
