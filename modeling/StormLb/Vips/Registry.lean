import Std.Data.ExtTreeMap.Lemmas
import StormLb.Health
import StormLb.Pool
import StormLb.Vips.Spec
import StormLb.Vrrp.Loop

/-!
# The VIP registry

Every VIP this process serves, and the operations that create, change and
remove them, one at a time.  Tasks and threads are known by numbers.  What the
file system, the TLS library and the kernel answer comes from outside.
-/

namespace StormLb.Vips

open StormLb.Net StormLb.Config StormLb.Health

/-- The name of the VIP the TOML `[vip]` table declares. -/
def configVip : String :=
  "default"

/-- A listener's accept task. -/
structure Serve where
  id : Nat
  listen : SocketAddr
  deriving DecidableEq, Repr

/-- A VRRP instance's handle, and what it was started with. -/
structure Handle where
  id : Nat
  params : Vrrp.Params
  deriving DecidableEq, Repr

structure Entry where
  spec : VipSpec
  fromConfig : Bool
  listen : SocketAddr
  pool : Pool
  checker : Checker
  /-- The health loop's task. -/
  health : Nat
  serve : Serve
  vrrp : Option Handle
  deriving DecidableEq

/-- `state_file`'s shape. -/
abbrev State := Std.ExtTreeMap String VipSpec

structure Registry where
  vips : Std.ExtTreeMap String Entry
  /-- Saved VIPs that did not start. -/
  pending : State
  stateFile : Option String
  /-- How many tasks and threads were started so far. -/
  started : Nat
  /-- The tasks that were aborted. -/
  aborted : List Nat
  /-- The VRRP handles that were stopped. -/
  stopped : List Nat

/-- What is answered during one `put`: the first and second read of the spec's CA file, and `bind`. -/
structure Environment where
  first : Outside
  second : Outside
  bind : SocketAddr → Except String Unit

def health {α : Type} : Except String α → Except ApplyError α
  | .ok value => .ok value
  | .error error => .error (.invalid (.health error))

/-- Whether the spec would be accepted by `Checker::set_spec`. -/
def healthOk (outside : Outside) (spec : HealthSpec) : Except ApplyError Unit :=
  match client outside spec with
  | .ok _ => .ok ()
  | .error error => .error (.invalid (.health error))

def bind (env : Environment) (listen : SocketAddr) : Except ApplyError Unit :=
  match env.bind listen with
  | .ok () => .ok ()
  | .error error => .error (.conflict (.bind error))

/-- The VIP's VRRP instance, if its spec has one. -/
def startVrrp (id : Nat) (spec : VipSpec) (vip : Option Ipv4Addr) : Option Handle := do
  let v ← spec.vrrp
  let vip ← vip
  return {
    id
    params :=
      { vrid := v.vrid, priority := v.priority, preempt := v.preempt,
        advertIntervalSecs := v.advertIntervalSecs, iface := v.interface, vip } }

namespace Registry

def new (stateFile : Option String) : Registry where
  vips := ∅
  pending := ∅
  stateFile := stateFile
  started := 0
  aborted := []
  stopped := []

/-- Dropping an entry ends its tasks and stops its VRRP instance. -/
def dropEntry (r : Registry) (e : Entry) : Registry :=
  { r with
    aborted := e.serve.id :: e.health :: r.aborted
    stopped := (e.vrrp.map Handle.id).toList ++ r.stopped }

/-- Another VIP that listens there, the first in the order of names. -/
def conflict (r : Registry) (name : String) (listen : SocketAddr) : Option String :=
  (r.vips.toList.find? fun (n, e) => n != name && e.listen == listen).map Prod.fst

/-- Serve on the new listener when the spec moves it. -/
def moveListener (r : Registry) (env : Environment) (listen : SocketAddr) (e : Entry) :
    Except ApplyError (Entry × Registry) :=
  if listen ≠ e.listen then
    match bind env listen with
    | .error error => .error error
    | .ok () =>
        .ok ({ e with serve := ⟨r.started, listen⟩, listen },
          { r with started := r.started + 1, aborted := e.serve.id :: r.aborted })
  else .ok (e, r)

/-- Stop the VRRP instance and start another when the spec changes it. -/
def changeVrrp (r : Registry) (spec : VipSpec) (vip : Option Ipv4Addr) (e : Entry) :
    Entry × Registry :=
  if spec.vrrp ≠ e.spec.vrrp ∨ spec.address ≠ e.spec.address then
    ({ e with vrrp := startVrrp r.started spec vip },
      { r with started := r.started + 1, stopped := (e.vrrp.map Handle.id).toList ++ r.stopped })
  else (e, r)

def setEntry (r : Registry) (name : String) (e : Entry) : Registry :=
  { r with vips := r.vips.insert name e }

/-- `put` on a name that is served. -/
def update (r : Registry) (env : Environment) (name : String) (spec : VipSpec) (c : Checked)
    (e : Entry) : Except ApplyError Bool × Registry :=
  match healthOk env.first spec.health with
  | .error error => (.error error, r)
  | .ok () =>
      match r.moveListener env c.listen e with
      | .error error => (.error error, r)
      | .ok (e, r) =>
          let e := { e with pool := e.pool.setAddrs c.backends }
          match health (e.checker.setSpec env.second spec.health) with
          | .error error => (.error error, r.setEntry name e)
          | .ok checker =>
              let (e, r) := r.changeVrrp spec c.vrrpVip { e with checker }
              (.ok false, r.setEntry name { e with spec })

/-- `put` on a new name. -/
def create (r : Registry) (env : Environment) (name : String) (spec : VipSpec) (fromConfig : Bool)
    (c : Checked) : Except ApplyError Bool × Registry :=
  match health (Checker.new env.first spec.health) with
  | .error error => (.error error, r)
  | .ok checker =>
      match bind env c.listen with
      | .error error => (.error error, r)
      | .ok () =>
          let e : Entry :=
            { spec, fromConfig, listen := c.listen, pool := Pool.new c.backends, checker,
              health := r.started, serve := ⟨r.started + 1, c.listen⟩,
              vrrp := startVrrp (r.started + 2) spec c.vrrpVip }
          (.ok true, { r with started := r.started + 3 }.setEntry name e)

def put (r : Registry) (env : Environment) (name : String) (spec : VipSpec) (fromConfig : Bool) :
    Except ApplyError Bool × Registry :=
  match check spec with
  | .error error => (.error error, r)
  | .ok c =>
      match r.conflict name c.listen with
      | some other => (.error (.conflict (.listener c.listen other)), r)
      | none =>
          match r.vips[name]? with
          | some e => r.update env name spec c e
          | none => r.create env name spec fromConfig c

/-- Start the TOML `[vip]` as the read-only VIP `default`. -/
def startConfig (r : Registry) (env : Environment) (spec : VipSpec) :
    Except ApplyError Bool × Registry :=
  r.put env configVip spec true

end Registry

/-! ## The state file -/

/-- `serde_json` on the state file's shape. -/
structure Serde where
  toStringPretty : State → String
  fromStr : String → Except String State

/-- What reading the state file brings. -/
inductive FileRead where
  | notFound
  | failed (error : String)
  | text (text : String)
  deriving DecidableEq, Repr

/-- The pending specs, and over them those of the running API VIPs. -/
def savedOver (pending : State) (vips : Std.ExtTreeMap String Entry) : State :=
  vips.toList.foldl
    (fun saved (n, e) => if e.fromConfig then saved else saved.insert n e.spec) pending

namespace Registry

/-- What `save` writes. -/
def saved (r : Registry) : State :=
  savedOver r.pending r.vips

/-- `save`, when `write_atomic` answers as given. -/
def save (r : Registry) (serde : Serde) (writeAtomic : String → String → Except String Unit) :
    Except ApplyError Unit :=
  match r.stateFile with
  | none => .ok ()
  | some path =>
      match writeAtomic path (serde.toStringPretty r.saved) with
      | .ok () => .ok ()
      | .error error => .error (.notSaved path error)

/-- One saved VIP: started, or kept as pending. -/
def loadOne (env : String → Environment) (state : Nat × Registry) (vip : String × VipSpec) :
    Nat × Registry :=
  match state.2.put (env vip.1) vip.1 vip.2 false with
  | (.ok _, r) => (state.1 + 1, r)
  | (.error _, r) => (state.1, { r with pending := r.pending.insert vip.1 vip.2 })

/-- Start the saved VIPs; how many, or why the file could not be used. -/
def loadState (r : Registry) (serde : Serde) (file : FileRead) (env : String → Environment) :
    Except String Nat × Registry :=
  match r.stateFile, file with
  | none, _ => (.ok 0, r)
  | some _, .notFound => (.ok 0, r)
  | some path, .failed error => (.error s!"reading {path}: {error}", r)
  | some path, .text text =>
      match serde.fromStr text with
      | .error error => (.error s!"parsing {path}: {error}", r)
      | .ok saved =>
          let (n, r) := saved.toList.foldl (loadOne env) (0, r)
          (.ok n, r)

def fromConfigAt (r : Registry) (name : String) : Bool :=
  r.vips[name]?.any Entry.fromConfig

/-- Create or replace the API VIP `name`; `true` when it was created. -/
def apply (r : Registry) (serde : Serde) (env : Environment)
    (writeAtomic : String → String → Except String Unit) (name : String) (spec : VipSpec) :
    Except ApplyError Bool × Registry :=
  match validName name with
  | .error error => (.error error, r)
  | .ok () =>
      if r.fromConfigAt name then (.error (.conflict (.changesConfig name)), r)
      else
        match r.put env name spec false with
        | (.error error, r) => (.error error, r)
        | (.ok created, r) =>
            let r := { r with pending := r.pending.erase name }
            (r.save serde writeAtomic >>= fun _ => return created, r)

/-- The part of `remove` under the lock. -/
def removeEntry (r : Registry) (name : String) : Except ApplyError Unit × Registry :=
  match r.vips[name]? with
  | none =>
      if name ∈ r.pending then (.ok (), { r with pending := r.pending.erase name })
      else (.error (.notFound name), r)
  | some e =>
      if e.fromConfig then (.error (.conflict (.removesConfig name)), r)
      else (.ok (), { r with vips := r.vips.erase name }.dropEntry e)

/-- Remove the API VIP `name`. -/
def remove (r : Registry) (serde : Serde) (writeAtomic : String → String → Except String Unit)
    (name : String) : Except ApplyError Unit × Registry :=
  match r.removeEntry name with
  | (.error error, r) => (.error error, r)
  | (.ok (), r) => (r.save serde writeAtomic, r)

end Registry

end StormLb.Vips
