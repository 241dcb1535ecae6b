import StormLb.Net.Addr

/-!
# Addresses read back

The text of an IPv4 address is read back as that address.
-/

namespace StormLb.Net

/-- `str::parse::<Ipv4Addr>()`: the whole text must be one address. -/
def Ipv4Addr.parse (text : String) : Option Ipv4Addr :=
  match readIpv4Addr text.toList with
  | some (addr, []) => some addr
  | _ => none

end StormLb.Net
