import StormLb.Json.Struct
import StormLb.Vips.Registry

/-!
# VIP specs as JSON

The derived writers and readers of the spec's structures and of the state file.
What is written reads back as the same spec, with every field that was left out
or defaulted.
-/

namespace StormLb

open StormLb.Json

namespace Config

def HealthMode.toJson : HealthMode → Json
  | .tcp => .string "tcp"
  | .http => .string "http"
  | .https => .string "https"

def HealthMode.named : String → Option HealthMode
  | "tcp" => some .tcp
  | "http" => some .http
  | "https" => some .https
  | _ => none

/-- A variant by its name, or as the only key of an object. -/
def HealthMode.fromJson : Json → Option HealthMode
  | .string name => named name
  | .object [(name, .null)] => named name
  | _ => none

def HealthSpec.toJson (spec : HealthSpec) : Json :=
  .object ([("mode", spec.mode.toJson), ("path", .string spec.path),
    ("interval_secs", ofU64 spec.intervalSecs), ("timeout_secs", ofU64 spec.timeoutSecs),
    ("expect_status", .array (spec.expectStatus.map ofU16))] ++
    ifSome "ca_file" .string spec.caFile)

/-- A health spec in which nothing is given. -/
def HealthSpec.default : HealthSpec := {}

def HealthSpec.fromJson (json : Json) : Option HealthSpec := do
  let field ← json.fields
    ["mode", "path", "interval_secs", "timeout_secs", "expect_status", "ca_file"] .ignored
  let mode ← orDefault default.mode HealthMode.fromJson (field "mode")
  let path ← orDefault default.path asStr (field "path")
  let intervalSecs ← orDefault default.intervalSecs asU64 (field "interval_secs")
  let timeoutSecs ← orDefault default.timeoutSecs asU64 (field "timeout_secs")
  let expectStatus ← orDefault default.expectStatus (asList asU16) (field "expect_status")
  let caFile ← orDefault none (asOption asStr) (field "ca_file")
  return { mode, path, intervalSecs, timeoutSecs, expectStatus, caFile }

@[simp] theorem HealthMode.fromJson_toJson (mode : HealthMode) :
    HealthMode.fromJson mode.toJson = some mode := by
  cases mode <;> rfl

@[simp] theorem HealthSpec.fromJson_toJson (spec : HealthSpec) :
    HealthSpec.fromJson spec.toJson = some spec := by
  obtain ⟨mode, path, intervalSecs, timeoutSecs, expectStatus, caFile⟩ := spec
  have statuses := asList_map asU16_ofU16 expectStatus
  cases caFile with
  | none =>
      rw [HealthSpec.fromJson, HealthSpec.toJson, fields_object
        ["mode", "path", "interval_secs", "timeout_secs", "expect_status"] rfl (by decide) (by decide)]
      simp only [Option.bind_eq_bind, Option.bind_some, List.append_nil, ifSome, List.lookup_cons_self,
        lookup_cons_of_ne, ne_eq, String.reduceEq, not_false_eq_true, orDefault]
      simp only [HealthMode.fromJson_toJson, asStr_string, asU64_ofU64, statuses, Option.bind_some]
      rfl
  | some caFile =>
      rw [HealthSpec.fromJson, HealthSpec.toJson, fields_object
        ["mode", "path", "interval_secs", "timeout_secs", "expect_status", "ca_file"] rfl
        (by decide) (by decide)]
      simp only [Option.bind_eq_bind, Option.bind_some, List.cons_append, List.nil_append, ifSome,
        List.lookup_cons_self, lookup_cons_of_ne, ne_eq, String.reduceEq, not_false_eq_true, orDefault]
      simp only [HealthMode.fromJson_toJson, asStr_string, asU64_ofU64, statuses, Option.bind_some]
      rfl

end Config

namespace Vips

open StormLb.Config

def BackendSpec.toJson (b : BackendSpec) : Json :=
  .object [("address", .string b.address), ("port", ofU16 b.port)]

def BackendSpec.fromJson (json : Json) : Option BackendSpec := do
  let field ← json.fields ["address", "port"] .denied
  let address ← required asStr (field "address")
  let port ← required asU16 (field "port")
  return { address, port }

def VrrpSpec.toJson (v : VrrpSpec) : Json :=
  .object [("interface", .string v.interface), ("vrid", ofU8 v.vrid), ("priority", ofU8 v.priority),
    ("preempt", .bool v.preempt), ("advert_interval_secs", ofU64 v.advertIntervalSecs)]

def VrrpSpec.fromJson (json : Json) : Option VrrpSpec := do
  let field ← json.fields ["interface", "vrid", "priority", "preempt", "advert_interval_secs"] .denied
  let interface ← required asStr (field "interface")
  let vrid ← orDefault 51 asU8 (field "vrid")
  let priority ← orDefault 100 asU8 (field "priority")
  let preempt ← orDefault true asBool (field "preempt")
  let advertIntervalSecs ← orDefault 1 asU64 (field "advert_interval_secs")
  return { interface, vrid, priority, preempt, advertIntervalSecs }

/-- The members of a spec; `bind` and `vrrp` are left out when absent. -/
def VipSpec.members (spec : VipSpec) : List (String × Json) :=
  [("address", .string spec.address), ("port", ofU16 spec.port)] ++ ifSome "bind" .string spec.bind ++
    [("backends", .array (spec.backends.map BackendSpec.toJson)), ("health", spec.health.toJson)] ++
    ifSome "vrrp" VrrpSpec.toJson spec.vrrp

def VipSpec.toJson (spec : VipSpec) : Json :=
  .object spec.members

def VipSpec.fromJson (json : Json) : Option VipSpec := do
  let field ← json.fields ["address", "port", "bind", "backends", "health", "vrrp"] .denied
  let address ← required asStr (field "address")
  let port ← required asU16 (field "port")
  let bind ← orDefault none (asOption asStr) (field "bind")
  let backends ← orDefault [] (asList BackendSpec.fromJson) (field "backends")
  let health ← orDefault HealthSpec.default HealthSpec.fromJson (field "health")
  let vrrp ← orDefault none (asOption VrrpSpec.fromJson) (field "vrrp")
  return { address, port, bind, backends, health, vrrp }

@[simp] theorem BackendSpec.fromJson_toJson (b : BackendSpec) :
    BackendSpec.fromJson b.toJson = some b := by
  rw [BackendSpec.fromJson, BackendSpec.toJson,
    fields_object ["address", "port"] rfl (by decide) (by decide)]
  simp only [Option.bind_eq_bind, Option.bind_some, List.lookup_cons_self, lookup_cons_of_ne, ne_eq,
    String.reduceEq, not_false_eq_true, required]
  simp only [asStr_string, asU16_ofU16, Option.bind_some]
  rfl

@[simp] theorem VrrpSpec.fromJson_toJson (v : VrrpSpec) : VrrpSpec.fromJson v.toJson = some v := by
  rw [VrrpSpec.fromJson, VrrpSpec.toJson, fields_object
    ["interface", "vrid", "priority", "preempt", "advert_interval_secs"] rfl (by decide) (by decide)]
  simp only [Option.bind_eq_bind, Option.bind_some, List.lookup_cons_self, lookup_cons_of_ne, ne_eq,
    String.reduceEq, not_false_eq_true, required, orDefault]
  simp only [asStr_string, asU8_ofU8, asBool_bool, asU64_ofU64, Option.bind_some]
  rfl

/-- Every spec is read back as it was written. -/
@[simp] theorem VipSpec.fromJson_toJson (spec : VipSpec) : VipSpec.fromJson spec.toJson = some spec := by
  obtain ⟨address, port, bind, backends, health, vrrp⟩ := spec
  have members := asList_map BackendSpec.fromJson_toJson backends
  have text (value : String) : asOption asStr (.string value) = some (some value) := rfl
  have instance_ (v : VrrpSpec) : asOption VrrpSpec.fromJson v.toJson = some (some v) :=
    asOption_of_read v.fromJson_toJson (by simp [VrrpSpec.toJson])
  cases bind with
  | none =>
      cases vrrp with
      | none =>
          rw [VipSpec.fromJson, VipSpec.toJson, VipSpec.members, fields_object
            ["address", "port", "backends", "health"] rfl (by decide) (by decide)]
          simp only [Option.bind_eq_bind, Option.bind_some, List.cons_append, List.nil_append,
            List.append_nil, ifSome, List.lookup_cons_self, lookup_cons_of_ne, ne_eq, String.reduceEq,
            not_false_eq_true, required, orDefault]
          simp only [asStr_string, asU16_ofU16, HealthSpec.fromJson_toJson, members,
            Option.bind_some]
          rfl
      | some vrrp =>
          rw [VipSpec.fromJson, VipSpec.toJson, VipSpec.members, fields_object
            ["address", "port", "backends", "health", "vrrp"] rfl (by decide) (by decide)]
          simp only [Option.bind_eq_bind, Option.bind_some, List.cons_append, List.nil_append,
            List.append_nil, ifSome, List.lookup_cons_self, lookup_cons_of_ne, ne_eq, String.reduceEq,
            not_false_eq_true, required, orDefault]
          simp only [asStr_string, asU16_ofU16, HealthSpec.fromJson_toJson, members, instance_,
            Option.bind_some]
          rfl
  | some bind =>
      cases vrrp with
      | none =>
          rw [VipSpec.fromJson, VipSpec.toJson, VipSpec.members, fields_object
            ["address", "port", "bind", "backends", "health"] rfl (by decide) (by decide)]
          simp only [Option.bind_eq_bind, Option.bind_some, List.cons_append, List.nil_append,
            List.append_nil, ifSome, List.lookup_cons_self, lookup_cons_of_ne, ne_eq, String.reduceEq,
            not_false_eq_true, required, orDefault]
          simp only [asStr_string, asU16_ofU16, HealthSpec.fromJson_toJson, members, text,
            Option.bind_some]
          rfl
      | some vrrp =>
          rw [VipSpec.fromJson, VipSpec.toJson, VipSpec.members, fields_object
            ["address", "port", "bind", "backends", "health", "vrrp"] rfl (by decide) (by decide)]
          simp only [Option.bind_eq_bind, Option.bind_some, List.cons_append, List.nil_append,
            ifSome, List.lookup_cons_self, lookup_cons_of_ne, ne_eq, String.reduceEq,
            not_false_eq_true, required, orDefault]
          simp only [asStr_string, asU16_ofU16, HealthSpec.fromJson_toJson, members, text, instance_,
            Option.bind_some]
          rfl

/-! ## The state file -/

def writeVip (vip : String × VipSpec) : String × Json :=
  (vip.1, vip.2.toJson)

def readVip (member : String × Json) : Option (String × VipSpec) := do
  let spec ← VipSpec.fromJson member.2
  return (member.1, spec)

def State.toJson (saved : State) : Json :=
  .object [("vips", .object (saved.toList.map writeVip))]

/-- A map: of a key that comes twice, the later value. -/
def readVips : Json → Option State
  | .object members => do
      let vips ← members.mapM readVip
      return .ofList vips
  | _ => none

def State.fromJson (json : Json) : Option State := do
  let field ← json.fields ["vips"] .ignored
  required readVips (field "vips")

theorem mapM_readVip (vips : List (String × VipSpec)) :
    (vips.map writeVip).mapM readVip = some vips := by
  induction vips with
  | nil => rfl
  | cons vip rest ih =>
      rw [List.map_cons, List.mapM_cons, ih]
      simp [readVip, writeVip]

/-- A map is what its own list of entries makes. -/
theorem ofList_toList (saved : State) : (.ofList saved.toList : State) = saved := by
  refine Std.ExtTreeMap.ext_getElem? fun name => ?_
  cases present : saved[name]? with
  | none =>
      refine Std.ExtTreeMap.getElem?_ofList_of_contains_eq_false ?_
      rw [Bool.eq_false_iff, Ne, List.contains_iff_mem]
      intro member
      obtain ⟨⟨_, spec⟩, there, rfl⟩ := List.mem_map.mp member
      rw [Std.ExtTreeMap.mem_toList_iff_getElem?_eq_some.mp there] at present
      cases present
  | some spec =>
      have member := Std.ExtTreeMap.mem_toList_iff_getElem?_eq_some.mpr present
      exact Std.ExtTreeMap.getElem?_ofList_of_mem Std.ReflCmp.compare_self
        Std.ExtTreeMap.distinct_keys_toList member

/-- The state file's content is read back as it was written. -/
theorem State.fromJson_toJson (saved : State) : State.fromJson saved.toJson = some saved := by
  have vips : readVips (.object (saved.toList.map writeVip)) = some saved := by
    rw [readVips, mapM_readVip]
    exact congrArg some (ofList_toList saved)
  rw [State.fromJson, State.toJson, fields_object ["vips"] rfl (by decide) (by decide)]
  simp only [Option.bind_eq_bind, Option.bind_some, List.lookup_cons_self, required]
  exact vips

end Vips

end StormLb
