/-!
# JSON values

A value as it was parsed, and the lookups on it: a member or an element that is
not there reads as `null`.
-/

namespace StormLb

/-- A number: an integer of 64 bits, signed only when it is negative, or a float by its bits. -/
inductive Json.Number where
  | unsigned (value : UInt64)
  | negative (value : Int64)
  | float (bits : UInt64)
  deriving DecidableEq

inductive Json where
  | null
  | bool (value : Bool)
  | number (value : Json.Number)
  | string (value : String)
  | array (elements : List Json)
  | object (members : List (String × Json))

namespace Json

/-- `value[key]` -/
def get (key : String) : Json → Json
  | object members => (members.lookup key).getD null
  | _ => null

/-- `value[index]` -/
def at_ (index : Nat) : Json → Json
  | array elements => elements[index]?.getD null
  | _ => null

def asStr : Json → Option String
  | string value => some value
  | _ => none

def asU64 : Json → Option UInt64
  | number (.unsigned value) => some value
  | _ => none

/-- The elements, none when it is not an array. -/
def elements : Json → List Json
  | array elements => elements
  | _ => []

@[simp] theorem asStr_eq_some {json : Json} {text : String} :
    json.asStr = some text ↔ json = string text := by
  cases json <;> simp [asStr]

end Json

end StormLb
