import StormLb.Vips.Codec

/-!
# VIPs as they are shown

A VIP as `GET` returns it: its spec, and where it stands.
-/

namespace StormLb.Vips

open StormLb.Net StormLb.Json

structure BackendStatus where
  address : String
  port : UInt16
  healthy : Bool
  deriving DecidableEq, Repr

structure Status where
  /-- Where the listener is bound. -/
  listening : String
  source : String
  healthy : Nat
  backends : List BackendStatus
  vrrp : Option String
  deriving DecidableEq, Repr

structure VipView where
  name : String
  spec : VipSpec
  status : Status
  deriving DecidableEq, Repr

/-- What a VRRP handle shows. -/
def stateName : Vrrp.State → String
  | .backup => "backup"
  | .master => "master"
  | .init => "stopped"

def backendStatus (b : Backend) : BackendStatus where
  address := b.addr.ip.display
  port := b.addr.port
  healthy := b.healthy

/-- The view of an entry; `shown` is what each VRRP handle holds. -/
def view (shown : Handle → Vrrp.State) (name : String) (e : Entry) : VipView :=
  let backends := e.pool.backends.map backendStatus
  { name
    spec := e.spec
    status :=
      { listening := e.listen.display
        source := if e.fromConfig then "config" else "api"
        healthy := (backends.filter BackendStatus.healthy).length
        backends
        vrrp := e.vrrp.map fun handle => stateName (shown handle) } }

namespace Registry

def get (r : Registry) (shown : Handle → Vrrp.State) (name : String) : Option VipView :=
  r.vips[name]?.map (view shown name)

def list (r : Registry) (shown : Handle → Vrrp.State) : List VipView :=
  r.vips.toList.map fun (name, e) => view shown name e

end Registry

/-! ## Views as JSON -/

def BackendStatus.toJson (b : BackendStatus) : Json :=
  .object [("address", .string b.address), ("port", ofU16 b.port), ("healthy", .bool b.healthy)]

def Status.toJson (s : Status) : Json :=
  .object ([("listening", .string s.listening), ("source", .string s.source),
    ("healthy", ofU64 (.ofNat s.healthy)), ("backends", .array (s.backends.map BackendStatus.toJson))] ++
    ifSome "vrrp" .string s.vrrp)

/-- The spec's members stand among the view's own. -/
def VipView.toJson (v : VipView) : Json :=
  .object ([("name", .string v.name)] ++ v.spec.members ++ [("status", v.status.toJson)])

end StormLb.Vips
