import StormLb.Json

/-!
# Structures as JSON

How a structure is written as an object and read back by a derived reader: from
an object whose known members come once, or from an array of the fields in
order; a field that is not there reads as its default.
-/

namespace StormLb.Json

/-! ## Writing -/

def ofU8 (value : UInt8) : Json :=
  .number (.unsigned value.toUInt64)

def ofU16 (value : UInt16) : Json :=
  .number (.unsigned value.toUInt64)

def ofU64 (value : UInt64) : Json :=
  .number (.unsigned value)

/-- A member that is left out when there is no value. -/
def ifSome {α : Type} (name : String) (write : α → Json) : Option α → List (String × Json)
  | none => []
  | some value => [(name, write value)]

/-! ## Reading values -/

def asBool : Json → Option Bool
  | .bool value => some value
  | _ => none

def asU8 (json : Json) : Option UInt8 := do
  let value ← json.asU64
  if value ≤ 255 then some value.toUInt8 else none

def asU16 (json : Json) : Option UInt16 := do
  let value ← json.asU64
  if value ≤ 65535 then some value.toUInt16 else none

def asList {α : Type} (read : Json → Option α) : Json → Option (List α)
  | .array elements => elements.mapM read
  | _ => none

/-- `null`, or a value. -/
def asOption {α : Type} (read : Json → Option α) : Json → Option (Option α)
  | .null => some none
  | json => (read json).map some

/-! ## Reading structures -/

/-- What a structure does with members it does not know. -/
inductive Unknown where
  | denied
  | ignored
  deriving DecidableEq

/-- The fields of a structure, by name. -/
def fields (names : List String) (unknown : Unknown) : Json → Option (String → Option Json)
  | .object members =>
      let known := (members.map Prod.fst).filter (· ∈ names)
      if known.Nodup ∧ (unknown = .denied → known.length = members.length) then
        some fun name => members.lookup name
      else none
  | .array elements =>
      if elements.length ≤ names.length then some fun name => (names.zip elements).lookup name
      else none
  | _ => none

/-- A field that has to be there. -/
def required {α : Type} (read : Json → Option α) (field : Option Json) : Option α :=
  field.bind read

/-- A field with a default. -/
def orDefault {α : Type} (value : α) (read : Json → Option α) : Option Json → Option α
  | none => some value
  | some json => read json

/-! ## What is written is read -/

section

variable {α : Type}

@[simp] theorem asStr_string (value : String) : (Json.string value).asStr = some value :=
  rfl

@[simp] theorem asBool_bool (value : Bool) : (Json.bool value).asBool = some value :=
  rfl

@[simp] theorem asU8_ofU8 (value : UInt8) : (ofU8 value).asU8 = some value := by
  have bound := value.toNat_lt
  have small : value.toUInt64 ≤ 255 := by
    rw [UInt64.le_iff_toNat_le, UInt8.toNat_toUInt64]
    exact Nat.le_of_lt_succ bound
  simp [asU8, ofU8, asU64, small]

@[simp] theorem asU16_ofU16 (value : UInt16) : (ofU16 value).asU16 = some value := by
  have bound := value.toNat_lt
  have small : value.toUInt64 ≤ 65535 := by
    rw [UInt64.le_iff_toNat_le, UInt16.toNat_toUInt64]
    exact Nat.le_of_lt_succ bound
  simp [asU16, ofU16, asU64, small]

@[simp] theorem asU64_ofU64 (value : UInt64) : (ofU64 value).asU64 = some value :=
  rfl

theorem asList_map {write : α → Json} {read : Json → Option α}
    (same : ∀ value, read (write value) = some value) (values : List α) :
    asList read (.array (values.map write)) = some values := by
  rw [asList]
  induction values with
  | nil => rfl
  | cons value rest ih =>
      rw [List.map_cons, List.mapM_cons, same, ih]
      rfl

/-- An object with known members, each once, has the fields it was written with. -/
theorem fields_object {names : List String} {unknown : Unknown} {members : List (String × Json)}
    (keys : List String) (same : members.map Prod.fst = keys) (distinct : keys.Nodup)
    (known : ∀ key ∈ keys, key ∈ names) :
    fields names unknown (.object members) = some fun name => members.lookup name := by
  subst same
  have all : (members.map Prod.fst).filter (· ∈ names) = members.map Prod.fst :=
    List.filter_eq_self.mpr fun key member => decide_eq_true (known key member)
  simp only [fields, all, List.length_map, implies_true, and_true, if_pos distinct]

theorem lookup_cons_of_ne {key other : String} {value : Json} {rest : List (String × Json)}
    (apart : key ≠ other) : ((other, value) :: rest).lookup key = rest.lookup key := by
  rw [List.lookup_cons, beq_eq_false_iff_ne.mpr apart]

/-- A value that is written as something else than `null` is read as one. -/
theorem asOption_of_read {read : Json → Option α} {json : Json} {value : α}
    (some_ : read json = some value) (notNull : json ≠ .null) :
    asOption read json = some (some value) := by
  cases json with
  | null => exact absurd rfl notNull
  | _ => simp [asOption, some_]

end

end StormLb.Json
