import Mathlib.Data.Set.Insert
import StormLb.Netlink.Dumps

/-!
# What the controller holds

Claims and releases are insertions into and deletions from a set of VIPs on
interfaces, whatever else is on them, and whatever fails.  The address that an
interface has of its own stays the one it was.
-/

namespace StormLb.Netlink

open StormLb.Net StormLb.Checked StormLb.Effects StormLb.Text

/-- What a controller is asked to do. -/
inductive Command where
  | claim (iface : String) (ip : Ipv4Addr)
  | release (iface : String) (ip : Ipv4Addr)
  deriving DecidableEq, Repr

/-- What that is for: the VIPs that are held, with their interfaces. -/
def Command.effect : Command → Set (String × Ipv4Addr) → Set (String × Ipv4Addr)
  | .claim iface ip, held => insert (iface, ip) held
  | .release iface ip, held => held \ {(iface, ip)}

def Command.program (e : Endian) : Command → VipProg (Outcome Unit)
  | .claim iface ip => Netlink.claim e ip.display iface
  | .release iface ip => Netlink.release e ip.display iface

namespace Kernel

variable {e : Endian} {K : Type} (kernel : Kernel e K)

/-- The VIPs on the interfaces: /32 addresses. -/
def held (k : K) : Set (String × Ipv4Addr) :=
  {vip | ∃ d ∈ kernel.devices k, d.name = utf8 vip.1.toList ∧
    IfAddr.host d.index vip.2 ∈ kernel.addrs k}

/-- The addresses that are no /32. -/
def wider (k : K) : List IfAddr :=
  (kernel.addrs k).filter fun a => a.prefixLen < 32

/-- The same devices and addresses, and nothing announced. -/
structure Unmoved (node after : Node K) : Prop where
  devices : kernel.devices after.kernel = kernel.devices node.kernel
  addrs : kernel.addrs after.kernel = kernel.addrs node.kernel
  announced : after.announced = node.announced

variable {kernel}

theorem Unmoved.refl (node : Node K) : kernel.Unmoved node node :=
  ⟨rfl, rfl, rfl⟩

theorem Unmoved.trans {node middle after : Node K} (first : kernel.Unmoved node middle)
    (second : kernel.Unmoved middle after) : kernel.Unmoved node after where
  devices := second.devices.trans first.devices
  addrs := second.addrs.trans first.addrs
  announced := second.announced.trans first.announced

/-! ## Looking an interface up -/

/-- A request for a dump changes nothing, and is answered as the laws say. -/
structure Shows {α : Type} (k : K) (request : List UInt8) (shows : α → Message → Prop)
    (as : List α) : Prop where
  devices : kernel.devices (kernel.reply k request).2 = kernel.devices k
  addrs : kernel.addrs (kernel.reply k request).2 = kernel.addrs k
  dumps : Dumped e shows as (kernel.reply k request).1
  /-- No message of a dump ends it early. -/
  ours : ∀ a m, shows a m → m.seq = 1 ∧ ¬ m.Ends

end Kernel

end StormLb.Netlink
