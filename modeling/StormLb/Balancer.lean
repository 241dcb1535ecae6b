import StormLb.Effects.Threads
import StormLb.Metrics.Recorded
import StormLb.Pool
import StormLb.Router.Scene

/-!
# The L4 balancer

`serve_vip` spawns a task for each connection it accepts: the connection is
counted, dialled through to a member of the VIP's pool, and handed to
`copy_bidirectional`, which ends at some time, with an error or without one, or
goes on.  The tasks of all VIPs share the metrics of the process; those of one
listener share its pool, which health checks and the API change.
-/

namespace StormLb.Balancer

open StormLb.Net StormLb.Effects
open StormLb.Router (Side)

/-! ## What a task asks for -/

inductive Op where
  | inc (name : String) (labels : List (List Char × List Char))
  | active (name : String) (labels : List (List Char × List Char))
  /-- The guard goes out of scope. -/
  | drop (guard : Metrics.ActiveGuard)
  /-- `pool.pick()` -/
  | pick
  | connect (addr : SocketAddr)
  | setNodelay (side : Side)
  /-- `copy_bidirectional`, until it ends. -/
  | copyBidirectional

/-- The answers; of a dial, an option or the copying, the error there was. -/
abbrev Op.Ans : Op → Type
  | .inc .. => Unit
  | .active .. => Metrics.ActiveGuard
  | .drop _ => Unit
  | .pick => Option Backend
  | .connect _ => Option String
  | .setNodelay _ => Option String
  | .copyBidirectional => Option String

abbrev Prog := Program Op Op.Ans

abbrev Log := History Op Op.Ans

def ask (op : Op) : Prog op.Ans :=
  .call op .done

@[simp] theorem ask_eq (op : Op) : ask op = .call op .done :=
  rfl

/-! ## One connection -/

def connectionsTotal : String :=
  "stormlb_vip_connections_total"

def connectionsActive : String :=
  "stormlb_vip_connections_active"

def noHealthyBackendTotal : String :=
  "stormlb_vip_no_healthy_backend_total"

def upstreamConnectErrorsTotal : String :=
  "stormlb_vip_upstream_connect_errors_total"

/-- `[("vip", vip)]` -/
def vipLabels (vip : String) : List (List Char × List Char) :=
  [("vip".toList, vip.toList)]

/-- A task; it has no loop of its own. -/
abbrev Task :=
  Prog (Empty ⊕ Unit)

/-- The end of a task, which drops its guard. -/
def close (active : Metrics.ActiveGuard) : Task := do
  let _ ← ask (.drop active)
  return .inr ()

/-- Copy both ways; what a socket option answers is ignored. -/
def proxy : Prog (Option String) := do
  let _ ← ask (.setNodelay .client)
  let _ ← ask (.setNodelay .backend)
  ask .copyBidirectional

/-- What `serve_vip` spawns. -/
def accepted (vip : String) : Task := do
  let l := vipLabels vip
  let _ ← ask (.inc connectionsTotal l)
  let active ← ask (.active connectionsActive l)
  match ← ask .pick with
  | none =>
      let _ ← ask (.inc noHealthyBackendTotal l)
      close active
  | some be =>
      match ← ask (.connect be.addr) with
      | none =>
          let _ ← proxy
          close active
      | some _ =>
          let _ ← ask (.inc upstreamConnectErrorsTotal l)
          close active

/-! ## What the tasks share -/

/-- A listener: the name of its VIP, and which pool it dials through. -/
structure Listener (κ : Type) where
  vip : String
  pool : κ

structure World (f64 : Metrics.F64) (κ : Type) where
  metrics : Metrics f64
  pools : κ → Pool

namespace World

variable {f64 : Metrics.F64} {κ : Type} [DecidableEq κ]

/-- The pool answers a pick, the registry takes the recordings; all else may be answered. -/
def serve (listener : Listener κ) (world : World f64 κ) : (op : Op) → op.Ans → Option (World f64 κ)
  | .inc name labels, _ => some { world with metrics := world.metrics.inc name labels }
  | .active name labels, guard =>
      let (metrics, live) := world.metrics.active name labels
      if guard = live then some { world with metrics } else none
  | .drop guard, _ => some { world with metrics := world.metrics.drop guard }
  | .pick, be =>
      let (picked, after) := (world.pools listener.pool).pick
      if be = picked then
        some { world with pools := Function.update world.pools listener.pool after }
      else none
  | _, _ => some world

section

variable {listener : Listener κ} {world after : World f64 κ}

theorem serve_active {name : String} {l : List (List Char × List Char)}
    {guard : Metrics.ActiveGuard}
    (served : world.serve listener (.active name l) guard = some after) :
    guard = ⟨name, Metrics.labels l⟩ ∧ after = { world with
      metrics := (world.metrics.active name l).1 } := by
  simp only [World.serve] at served
  split at served
  · rename_i live
    exact ⟨live, (Option.some.inj served).symm⟩
  · cases served

theorem serve_pick {be : Option Backend} (served : world.serve listener .pick be = some after) :
    be = (world.pools listener.pool).pick.1 ∧ after.metrics = world.metrics := by
  simp only [World.serve] at served
  split at served
  · rename_i picked
    cases served
    exact ⟨picked, rfl⟩
  · cases served

end

/-- The series that only the tasks record into. -/
def series : List String :=
  [connectionsTotal, connectionsActive, noHealthyBackendTotal, upstreamConnectErrorsTotal]

/-- What else happens: probes, new members, and what others record. -/
inductive Drifts (world : World f64 κ) : World f64 κ → Prop where
  | probed (k : κ) (id : Nat) (healthy : Bool) :
      Drifts world
        { world with
          pools := Function.update world.pools k ((world.pools k).setHealthy id healthy) }
  | members (k : κ) (addrs : List SocketAddr) :
      Drifts world
        { world with pools := Function.update world.pools k ((world.pools k).setAddrs addrs) }
  | recorded (r : Metrics.Record) (other : r.name ∉ series) :
      Drifts world { world with metrics := Metrics.record world.metrics r }

end World

/-- Connections `ι`, each accepted on its listener. -/
def connections (f64 : Metrics.F64) {ι κ : Type} [DecidableEq κ] (listener : ι → Listener κ) :
    Threads ι Op Op.Ans Empty Unit (World f64 κ) where
  first i := accepted (listener i).vip
  body _ := Empty.elim
  serves i := World.serve (listener i)
  drifts := World.Drifts

end StormLb.Balancer
