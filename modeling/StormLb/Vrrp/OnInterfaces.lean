import StormLb.Effects.Threads
import StormLb.Netlink.Interfaces
import StormLb.Vrrp.LoopInvariant

/-!
# The loops of a node over its interfaces

Any number of loops claim, release and look up through the controller, in any
interleaving.  The kernel may refuse anything at any time, and whatever else
changes on the interfaces leaves the VIPs of the loops alone.
-/

namespace StormLb.Vrrp

open StormLb.Net StormLb.Effects StormLb.Netlink StormLb.Text

/-- The interface and the VIP of a loop. -/
def Params.address (p : Params) : String × Ipv4Addr :=
  (p.iface, p.vip)

/-! ## What a loop hears of the controller -/

/-- `Ok`; the loop logs an error, and goes on. -/
def succeeded : Outcome Unit → Bool
  | .ok (.ok _) => true
  | _ => false

/-- The address found; an error ends the loop. -/
def foundAddress : Outcome Ipv4Addr → Option Ipv4Addr
  | .ok (.ok ip) => some ip
  | _ => none

section

variable {e : Endian} {K : Type} (kernel : Kernel e K)

/-- A program of the controller, when what is heard of its outcome is this answer. -/
def heard {β α : Type} [DecidableEq α] (node : Node K) (program : VipProg β) (hears : β → α)
    (answer : α) : Option (Node K) :=
  if hears (program.serve kernel.answer node).1 = answer then
    some (program.serve kernel.answer node).2
  else none

/-- The node after a call of a loop with this answer; other calls may be answered in any way. -/
def serveLoop (node : Node K) : (call : Call) → call.Ans → Option (Node K)
  | ⟨_, .interfaceIpv4 iface⟩, answer =>
      heard kernel node (Netlink.interfaceIpv4 e iface) foundAddress answer
  | ⟨_, .claim vip iface⟩, answer => heard kernel node (Netlink.claim e vip iface) succeeded answer
  | ⟨_, .release vip iface⟩, answer =>
      heard kernel node (Netlink.release e vip iface) succeeded answer
  | _, _ => some node

end

/-! ## What a call does to the interfaces -/

section

variable {e : Endian} {K : Type} {kernel : Kernel e K} {node after : Node K}

end

/-! ## What is on the interfaces -/

/-- Whether an address is there: as the last claim or release that succeeded left it. -/
def stands (before : Prop) (log : Log) : Prop :=
  match lastSuccessful log with
  | none => before
  | some .claim => True
  | some .release => False

section

variable {ι : Type} [DecidableEq ι] {e : Endian} {K : Type} {kernel : Kernel e K}
  {params : ι → Params} {node : Node K} {config : Config ι Call Call.Ans Locals Exit (Node K)}
  {allowed : Option ι → Config ι Call Call.Ans Locals Exit (Node K) → Prop}

end

/-! ## The source of the advertisements -/

/-- The address that the lookup found. -/
@[simp] def source : Log → Option Ipv4Addr
  | [] => none
  | ⟨⟨_, op⟩, answer⟩ :: past =>
      match op, answer with
      | .interfaceIpv4 _, found => found
      | _, _ => source past

/-- An advertisement of this priority, computed for this source. -/
def Params.advertisement (p : Params) (priority : UInt8) (src : Ipv4Addr) : List UInt8 :=
  encodeAdvertisement p.vrid priority p.router.advertIntervalCentis [p.vip] src

section

open Program (Keeps)

variable {p : Params} {l : Locals} {log : Log}

namespace Params

end Params

end

section

variable {ι : Type} [DecidableEq ι] {e : Endian} {K : Type} {kernel : Kernel e K}
  {params : ι → Params} {node : Node K} {config : Config ι Call Call.Ans Locals Exit (Node K)}
  {allowed : Option ι → Config ι Call Call.Ans Locals Exit (Node K) → Prop}

end

/-! ## Two loops on one interface -/

/-- Owners of 192.168.8.50 and 192.168.8.51. -/
def owners (first : Bool) : Params :=
  { owner with vip := ⟨192, 168, 8, if first then 50 else 51⟩ }

end StormLb.Vrrp
