import Mathlib.Order.Basic
import Mathlib.Order.Lattice

/-!
# Internet addresses

The address types of the standard library that the sources use, with their
order, their text form and the parser behind `str::parse::<IpAddr>()`: four
decimal groups of one to three digits without a leading zero, or eight
hexadecimal groups of one to four digits, `::` standing for at least one zero
group and the last two groups possibly written as an IPv4 address.
-/

namespace StormLb.Net

/-- An IPv4 address, its octets in network order. -/
structure Ipv4Addr where
  a : UInt8
  b : UInt8
  c : UInt8
  d : UInt8
  deriving DecidableEq, Repr

/-- An IPv6 address, its eight 16-bit groups in network order. -/
structure Ipv6Addr where
  segments : Vector UInt16 8
  deriving DecidableEq, Repr

inductive IpAddr where
  | v4 (addr : Ipv4Addr)
  | v6 (addr : Ipv6Addr)
  deriving DecidableEq, Repr

structure SocketAddr where
  ip : IpAddr
  port : UInt16
  deriving DecidableEq, Repr

namespace Ipv4Addr

def octets (addr : Ipv4Addr) : List UInt8 :=
  [addr.a, addr.b, addr.c, addr.d]

/-- The address as one big-endian number. -/
def toBits (addr : Ipv4Addr) : Nat :=
  ((addr.a.toNat * 256 + addr.b.toNat) * 256 + addr.c.toNat) * 256 + addr.d.toNat

theorem toBits_injective : Function.Injective toBits := by
  rintro ⟨a, b, c, d⟩ ⟨a', b', c', d'⟩ same
  simp only [toBits] at same
  have bounds := And.intro a.toNat_lt (And.intro b.toNat_lt (And.intro c.toNat_lt d.toNat_lt))
  have bounds' :=
    And.intro a'.toNat_lt (And.intro b'.toNat_lt (And.intro c'.toNat_lt d'.toNat_lt))
  simp only [mk.injEq, ← UInt8.toNat_inj]
  omega

/-- Comparing octet by octet is comparing the big-endian numbers. -/
instance : LinearOrder Ipv4Addr :=
  LinearOrder.lift' toBits toBits_injective

end Ipv4Addr

/-! ## Reading addresses -/

/-- `char::to_digit`. -/
def toDigit (radix : Nat) (c : Char) : Option Nat :=
  let value :=
    if '0' ≤ c ∧ c ≤ '9' then c.toNat - '0'.toNat
    else if 'a' ≤ c ∧ c ≤ 'z' then c.toNat - 'a'.toNat + 10
    else if 'A' ≤ c ∧ c ≤ 'Z' then c.toNat - 'A'.toNat + 10
    else radix
  if value < radix then some value else none

/-- A number of one to `maxDigits` digits below `bound`. -/
def readNumber (radix maxDigits : Nat) (allowZeroPrefix : Bool) (bound : Nat)
    (input : List Char) : Option (Nat × List Char) :=
  let digits := input.takeWhile fun c => (toDigit radix c).isSome
  if digits.length = 0 ∨ maxDigits < digits.length then none
  else if !allowZeroPrefix && digits.head? == some '0' && 1 < digits.length then none
  else
    let value := digits.foldl (fun sum c => sum * radix + (toDigit radix c).getD 0) 0
    if value < bound then some (value, input.drop digits.length) else none

/-- Every group but the first is preceded by the separator. -/
def readSeparator {α : Type} (separator : Char) (index : Nat)
    (inner : List Char → Option (α × List Char)) (input : List Char) : Option (α × List Char) :=
  if index = 0 then inner input
  else
    match input with
    | [] => none
    | c :: rest => if c = separator then inner rest else none

def readIpv4Addr (input : List Char) : Option (Ipv4Addr × List Char) := do
  let group := readNumber 10 3 false 256
  let (a, rest) ← readSeparator '.' 0 group input
  let (b, rest) ← readSeparator '.' 1 group rest
  let (c, rest) ← readSeparator '.' 2 group rest
  let (d, rest) ← readSeparator '.' 3 group rest
  return (⟨a.toUInt8, b.toUInt8, c.toUInt8, d.toUInt8⟩, rest)

/--
Up to `limit` groups of an IPv6 address, `left` of them still to be read, and
whether the last two came from an embedded IPv4 address.
-/
def readGroups (limit : Nat) : Nat → List Char → List UInt16 × Bool × List Char
  | 0, input => ([], false, input)
  | left + 1, input =>
      let index := limit - (left + 1)
      match if 0 < left then readSeparator ':' index readIpv4Addr input else none with
      | some (v4, rest) =>
          ([v4.a.toUInt16 * 256 + v4.b.toUInt16, v4.c.toUInt16 * 256 + v4.d.toUInt16], true, rest)
      | none =>
          match readSeparator ':' index (readNumber 16 4 true 65536) input with
          | some (group, rest) =>
              let (groups, embedded, rest) := readGroups limit left rest
              (group.toUInt16 :: groups, embedded, rest)
          | none => ([], false, input)

def Ipv6Addr.ofGroups (groups : List UInt16) : Ipv6Addr :=
  ⟨Vector.ofFn fun i => groups.getD i 0⟩

def readIpv6Addr (input : List Char) : Option (Ipv6Addr × List Char) :=
  let (head, embedded, rest) := readGroups 8 8 input
  if head.length = 8 then some (.ofGroups head, rest)
  -- An IPv4 part may not stand before `::`.
  else if embedded then none
  else
    match rest with
    | ':' :: ':' :: rest =>
        let limit := 8 - (head.length + 1)
        let (tail, _, rest) := readGroups limit limit rest
        let zeros := List.replicate (8 - tail.length - head.length) 0
        some (.ofGroups (head ++ zeros ++ tail), rest)
    | _ => none

/-- `str::parse::<IpAddr>()`: the whole text must be one address. -/
def IpAddr.parse (text : String) : Option IpAddr :=
  let read :=
    match readIpv4Addr text.toList with
    | some (addr, rest) => some (IpAddr.v4 addr, rest)
    | none => (readIpv6Addr text.toList).map fun (addr, rest) => (IpAddr.v6 addr, rest)
  match read with
  | some (addr, []) => some addr
  | _ => none

example : IpAddr.parse "10.0.0.1" = some (.v4 ⟨10, 0, 0, 1⟩) := by decide

example : IpAddr.parse "::ffff:1.2.3.4" =
    some (.v6 (.ofGroups [0, 0, 0, 0, 0, 0xffff, 0x0102, 0x0304])) := by decide

/-! ## Writing addresses -/

def Ipv4Addr.display (addr : Ipv4Addr) : String :=
  ".".intercalate (addr.octets.map fun octet => toString octet.toNat)

/-- The leftmost longest run of zero groups: where it starts and how long it is. -/
def longestZeros : Nat → List UInt16 → Nat × Nat
  | _, [] => (0, 0)
  | index, group :: rest =>
      let here := ((group :: rest).takeWhile (· == 0)).length
      let later := longestZeros (index + 1) rest
      if later.2 ≤ here then (index, here) else later

def displayGroups (groups : List UInt16) : String :=
  ":".intercalate (groups.map fun group => String.ofList (Nat.toDigits 16 group.toNat))

def Ipv6Addr.display (addr : Ipv6Addr) : String :=
  let groups := addr.segments.toList
  match groups with
  | [0, 0, 0, 0, 0, 0xffff, high, low] =>
      let v4 : Ipv4Addr := ⟨(high / 256).toUInt8, high.toUInt8, (low / 256).toUInt8, low.toUInt8⟩
      "::ffff:" ++ v4.display
  | _ =>
      let (start, length) := longestZeros 0 groups
      if 1 < length then
        displayGroups (groups.take start) ++ "::" ++ displayGroups (groups.drop (start + length))
      else displayGroups groups

def IpAddr.display : IpAddr → String
  | .v4 addr => addr.display
  | .v6 addr => addr.display

def SocketAddr.display (addr : SocketAddr) : String :=
  match addr.ip with
  | .v4 ip => ip.display ++ ":" ++ toString addr.port.toNat
  | .v6 ip => "[" ++ ip.display ++ "]:" ++ toString addr.port.toNat

end StormLb.Net
