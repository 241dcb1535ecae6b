import StormLb.Netlink.Kernel

/-!
# What is found in a dump

Of the devices a dump shows, the one with the wanted name is found; of its
addresses, those of the wanted interface, in their order.  What else the
messages carry is passed over.
-/

namespace StormLb.Netlink

open StormLb.Net StormLb.Checked

/-- The hardware address as `link` keeps it: all zero unless it is one of Ethernet. -/
def Device.mac (d : Device) : Vector UInt8 6 :=
  match d.hardware with
  | some hardware =>
      if six : hardware.length = 6 then ⟨hardware.toArray, six⟩ else .replicate 6 0
  | none => .replicate 6 0

theorem Rtattr.dataOf_cons (ty : UInt16) (a : Rtattr) (rest : List Rtattr) :
    Rtattr.dataOf ty (a :: rest) =
      if a.ty &&& 0x3fff = ty then a.data :: Rtattr.dataOf ty rest else Rtattr.dataOf ty rest := by
  rw [Rtattr.dataOf, List.filter_cons]
  by_cases same : a.ty &&& 0x3fff = ty
  · simp [same, Rtattr.dataOf]
  · simp [same, Rtattr.dataOf]

variable {e : Endian}

/-- The messages of a dump, as a request returns them. -/
def shown (ms : List Message) : Replies :=
  ms.map fun m => (m.ty, m.body)

end StormLb.Netlink
