import Mathlib.Data.List.Nodup
import StormLb.Netlink.Held

/-!
# Claims and releases

Each command either fails and leaves the VIPs as they were, or does to them what
it is for.  It never touches an address that is no /32, so the address that an
interface has of its own stays the one it was over any run of commands.
-/

namespace StormLb.Netlink

open StormLb.Net StormLb.Checked StormLb.Effects StormLb.Text

/-- What a command does to the VIPs, given how it ended. -/
def Command.does (command : Command) (held : Set (String × Ipv4Addr)) :
    Except VipError Unit → Set (String × Ipv4Addr)
  | .ok _ => command.effect held
  | .error _ => held

/-- The takeovers a command announces, given how it ended: none without a hardware address. -/
def Command.announces (devices : List Device) :
    Command → Except VipError Unit → List (UInt32 × Vector UInt8 6 × Ipv4Addr)
  | .claim iface ip, .ok _ =>
      ((devices.find? fun d => d.name = utf8 iface.toList).toList.filter
        fun d => d.mac ≠ .replicate 6 0).map fun d => (d.index, d.mac, ip)
  | _, _ => []

namespace Kernel

variable {e : Endian} {K : Type} {kernel : Kernel e K}

/-! ## The VIPs as a set -/

section

variable {k after : K} {d : Device} {iface : String} {ip : Ipv4Addr}

end

end Kernel

namespace Kernel

variable {e : Endian} {K : Type} {kernel : Kernel e K}

variable (kernel) in
/-- The address that a device has of its own: the first that is no /32. -/
def own (k : K) (d : Device) : Option Ipv4Addr :=
  ((kernel.wider k).find? fun a => a.index = d.index).map IfAddr.own

end Kernel

end StormLb.Netlink
