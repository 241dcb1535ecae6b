import StormLb.Effects.Both
import StormLb.Effects.Threads
import StormLb.Metrics.Registry
import StormLb.Router.Serve

/-!
# Listeners

`serve_on` and `serve_tls_on` spawn a task for each connection they accept.  The
tasks share the routing table, which `poll_routes` replaces from time to time,
and the metrics of the process.
-/

namespace StormLb.Router

open StormLb.Effects

/-- What a task asks for besides what `serve_conn` does. -/
inductive ListenOp where
  /-- `metrics().active` -/
  | active (name : String) (labels : List (String × String))
  /-- The guard goes out of scope. -/
  | drop (guard : Metrics.ActiveGuard)
  /-- The TLS handshake with the client, for ten seconds at most. -/
  | accept

abbrev ListenOp.Ans : ListenOp → Type
  | .active .. => Metrics.ActiveGuard
  | .drop _ => Unit
  | .accept => Handshake

abbrev TaskOp : Type :=
  Op ⊕ ListenOp

abbrev TaskOp.Ans : TaskOp → Type :=
  Sum.elim Op.Ans ListenOp.Ans

abbrev TaskProg := Program TaskOp TaskOp.Ans

/-- A task between two turns of the loops of `serve_conn`. -/
structure Task where
  guard : Metrics.ActiveGuard
  serving : Serving

inductive Listener where
  | http
  | https
  deriving DecidableEq, Repr

namespace Listener

def label : Listener → String
  | .http => "http"
  | .https => "https"

/-- Count the connection; it is open while the guard lives. -/
def opened (listener : Listener) : TaskProg Metrics.ActiveGuard :=
  .call (.inl (.inc "stormlb_router_connections_total" [("listener", listener.label)])) fun _ =>
    .call (.inr (.active "stormlb_router_connections_active" [("listener", listener.label)])) .done

end Listener

/-- The end of a task, which drops its guard. -/
def Task.close (guard : Metrics.ActiveGuard) : TaskProg (Task ⊕ Unit) :=
  .call (.inr (.drop guard)) fun _ => .done (.inr ())

/-- A connection that was accepted, before `serve_conn`: over TLS, the handshake comes first. -/
def Listener.spawn (listener : Listener) : TaskProg (Task ⊕ Unit) :=
  listener.opened.bind fun guard =>
    match listener with
    | .http => .done (.inl { guard, serving := .reading [] })
    | .https =>
        .call (.inr .accept) fun
          | .connected => .done (.inl { guard, serving := .reading [] })
          | .failed _ | .timedOut =>
              .call (.inl (.inc "stormlb_router_tls_handshake_errors_total" [])) fun _ =>
                Task.close guard

/-- A turn of `serve_conn`; its error is only logged. -/
def Task.turn (front : Front) (listener : Listener) (task : Task) : TaskProg (Task ⊕ Unit) :=
  (front.turn (listener = .https) task.serving).left.bind fun
    | .inl serving => .done (.inl { task with serving })
    | .inr _ => Task.close task.guard

/-! ## What the tasks share -/

structure World (f64 : Metrics.F64) where
  table : Table
  /-- The tables before this one. -/
  earlier : List Table
  metrics : Metrics f64
  /-- What `sent.elapsed()` says now, in nanoseconds. -/
  elapsed : Nat

namespace World

variable {f64 : Metrics.F64}

/-- The process starts without metrics. -/
def start (table : Table) : World f64 where
  table := table
  earlier := []
  metrics := .default f64
  elapsed := 0

/-- Labels as the registry takes them. -/
def chars (labels : List (String × String)) : List (List Char × List Char) :=
  labels.map fun label => (label.1.toList, label.2.toList)

/-- Lookups are answered by the table, recordings go to the registry; all else may be answered. -/
def serveConn (world : World f64) : (op : Op) → op.Ans → Option (World f64)
  | .lookup host, entry => if entry = world.table[host]? then some world else none
  | .inc name labels, _ => some { world with metrics := world.metrics.inc name (chars labels) }
  | .observe name labels, _ =>
      some { world with metrics := world.metrics.observe name (chars labels) world.elapsed }
  | _, _ => some world

def serveListener (world : World f64) : (op : ListenOp) → op.Ans → Option (World f64)
  | .active name labels, guard =>
      let (metrics, live) := world.metrics.active name (chars labels)
      if guard = live then some { world with metrics } else none
  | .drop guard, _ => some { world with metrics := world.metrics.drop guard }
  | .accept, _ => some world

def serve (world : World f64) : (op : TaskOp) → op.Ans → Option (World f64)
  | .inl op, answer => world.serveConn op answer
  | .inr op, answer => world.serveListener op answer

/-- The table is replaced, or time passes. -/
inductive Drifts (world : World f64) : World f64 → Prop where
  | polled (table : Table) :
      Drifts world { world with table, earlier := world.table :: world.earlier }
  | passed (elapsed : Nat) : Drifts world { world with elapsed }

end World

/-- Connections `ι`, each on its listener and served with its front. -/
def connections (f64 : Metrics.F64) {ι : Type} (listener : ι → Listener) (front : ι → Front) :
    Threads ι TaskOp TaskOp.Ans Task Unit (World f64) where
  first i := (listener i).spawn
  body i := Task.turn (front i) (listener i)
  serves _ := World.serve
  drifts := World.Drifts

end StormLb.Router
