import Mathlib.Algebra.Group.Nat.Defs
import Std.Data.ExtTreeMap.Lemmas
import StormLb.Text.WrittenExposition

/-!
# The metrics of the process

Counters, gauges and histograms under a name and a label text, and what each recorder does
to them.
-/

namespace StormLb

namespace Metrics

open Exposition (decimal)

/-- `f64`, as far as the metrics use it: whole numbers and durations, sums, and the text
they are displayed by. -/
structure F64 where
  Value : Type
  zero : Value
  add : Value → Value → Value
  ofInt : Int → Value
  asSecsF64 : Nat → Value
  display : Value → List Char
  display_float : ∀ value, Exposition.isFloat (display value) = true
  display_ofInt : ∀ n : Int, n.natAbs < 2 ^ 53 → display (ofInt n) = decimal n

/-- The bound of a bucket, in nanoseconds and as it is displayed in seconds. -/
structure Bound where
  nanos : Nat
  text : List Char
  deriving DecidableEq

def buckets : List Bound :=
  [⟨5000000, "0.005".toList⟩, ⟨10000000, "0.01".toList⟩, ⟨25000000, "0.025".toList⟩,
    ⟨50000000, "0.05".toList⟩, ⟨100000000, "0.1".toList⟩, ⟨250000000, "0.25".toList⟩,
    ⟨500000000, "0.5".toList⟩, ⟨1000000000, "1".toList⟩, ⟨2500000000, "2.5".toList⟩,
    ⟨5000000000, "5".toList⟩, ⟨10000000000, "10".toList⟩]

inductive Ty where
  | counter
  | gauge
  | histogram
  deriving DecidableEq

def Ty.text : Ty → String
  | .counter => "counter"
  | .gauge => "gauge"
  | .histogram => "histogram"

structure Described where
  name : String
  ty : Ty
  help : String

def catalog : List Described := [
  ⟨"stormlb_build_info", .gauge,
    "Always 1; the version is the label."⟩,
  ⟨"stormlb_router_connections_total", .counter,
    "Connections accepted by the router, by listener (http, https)."⟩,
  ⟨"stormlb_router_connections_active", .gauge,
    "Router connections open now, by listener."⟩,
  ⟨"stormlb_router_requests_total", .counter,
    "Requests by route host (or unrouted) and status code: the first request of each connection, which is what the router routes. code=error: the backend gave no response."⟩,
  ⟨"stormlb_router_request_duration_seconds", .histogram,
    "From the request being sent to the backend to its first response byte, by route host."⟩,
  ⟨"stormlb_router_upstream_errors_total", .counter,
    "Backend failures by route host and kind (connect, no_response)."⟩,
  ⟨"stormlb_router_tls_handshake_errors_total", .counter,
    "TLS handshakes that failed or timed out."⟩,
  ⟨"stormlb_router_routes", .gauge,
    "Hostnames in the route table."⟩,
  ⟨"stormlb_router_route_refreshes_total", .counter,
    "Route-table refreshes from the apiserver, by result (ok, error)."⟩,
  ⟨"stormlb_router_tls_certificates_loaded", .gauge,
    "Certificate/key pairs loaded for the TLS listener."⟩,
  ⟨"stormlb_router_tls_reloads_total", .counter,
    "Certificate pairs (re)loaded from changed files, by result (ok, error)."⟩,
  ⟨"stormlb_vip_connections_total", .counter,
    "Connections accepted on a VIP's L4 listener."⟩,
  ⟨"stormlb_vip_connections_active", .gauge,
    "Connections open through a VIP now."⟩,
  ⟨"stormlb_vip_no_healthy_backend_total", .counter,
    "Connections dropped because a VIP had no healthy backend."⟩,
  ⟨"stormlb_vip_upstream_connect_errors_total", .counter,
    "Connections dropped because the chosen backend refused or failed."⟩,
  ⟨"stormlb_vip_backend_healthy", .gauge,
    "1 if a VIP's backend passes its health check, else 0."⟩,
  ⟨"stormlb_vip_vrrp_master", .gauge,
    "1 while this node is the VRRP Master for the VIP, else 0 (absent without VRRP)."⟩,
  ⟨"process_resident_memory_bytes", .gauge,
    "Resident memory of this stormlb process."⟩,
  ⟨"process_open_fds", .gauge,
    "Open file descriptors of this stormlb process."⟩,
  ⟨"process_max_fds", .gauge,
    "This process's open-file limit."⟩,
  ⟨"process_cpu_seconds_total", .counter,
    "User and system CPU time of this stormlb process."⟩,
  ⟨"process_start_time_seconds", .gauge,
    "When this process started, in seconds since the Unix epoch."⟩]

structure Hist (f64 : F64) where
  buckets : Fin buckets.length → UInt64
  sum : f64.Value
  count : UInt64

def Hist.default (f64 : F64) : Hist f64 :=
  { buckets := fun _ => 0, sum := f64.zero, count := 0 }

/-- A histogram after one more duration, in nanoseconds: as `f64` seconds, durations and
bounds compare as they do. -/
def Hist.observe {f64 : F64} (h : Hist f64) (d : Nat) : Hist f64 :=
  { buckets := fun i => if d ≤ (Metrics.buckets.get i).nanos then h.buckets i + 1 else h.buckets i
    sum := f64.add h.sum (f64.asSecsF64 d)
    count := h.count + 1 }

/-- A name, and the labels as one text. -/
abbrev Key := String × List Char

def Key.cmp : Key → Key → Ordering :=
  compareLex (compareOn Prod.fst) (compareOn Prod.snd)

instance : Std.TransCmp Key.cmp :=
  inferInstanceAs (Std.TransCmp (compareLex (compareOn Prod.fst) (compareOn Prod.snd)))

instance : Std.LawfulEqCmp Key.cmp where
  eq_of_compare {key key'} same := by
    obtain ⟨name, labels⟩ := Ordering.then_eq_eq.mp same
    exact Prod.ext (Std.LawfulEqOrd.eq_of_compare name) (Std.LawfulEqOrd.eq_of_compare labels)

abbrev Series (Value : Type) := Std.ExtTreeMap Key Value Key.cmp

end Metrics

structure Metrics (f64 : Metrics.F64) where
  counters : Metrics.Series UInt64
  gauges : Metrics.Series Int64
  hists : Metrics.Series (Metrics.Hist f64)

namespace Metrics

def default (f64 : F64) : Metrics f64 :=
  { counters := ∅, gauges := ∅, hists := ∅ }

/-! ## Labels -/

/-- A character of a label value. -/
def pushEscaped (s : List Char) (c : Char) : List Char :=
  match c with
  | '\\' => s ++ ['\\', '\\']
  | '"' => s ++ ['\\', '"']
  | '\n' => s ++ ['\\', 'n']
  | c => s ++ [c]

/-- One label of the set, after `i` others. -/
def pushLabel (s : List Char) (label : (List Char × List Char) × Nat) : List Char :=
  let ((k, v), i) := label
  let s := if i > 0 then s ++ [','] else s
  let s := s ++ k ++ ['=', '"']
  v.foldl pushEscaped s ++ ['"']

def labels (pairs : List (List Char × List Char)) : List Char :=
  if pairs.isEmpty then []
  else pairs.zipIdx.foldl pushLabel ['{'] ++ ['}']

/-! ## Recording -/

/-- The gauge that a live guard counts in. -/
structure ActiveGuard where
  name : String
  key : List Char
  deriving DecidableEq

variable {f64 : F64}

def inc (m : Metrics f64) (name : String) (l : List (List Char × List Char)) : Metrics f64 :=
  { m with counters := m.counters.alter (name, labels l) fun v => some (v.getD 0 + 1) }

def gaugeAdd (m : Metrics f64) (name : String) (l : List (List Char × List Char)) (d : Int64) :
    Metrics f64 :=
  { m with gauges := m.gauges.alter (name, labels l) fun v => some (v.getD 0 + d) }

def gaugeSet (m : Metrics f64) (name : String) (l : List (List Char × List Char)) (v : Int64) :
    Metrics f64 :=
  { m with gauges := m.gauges.insert (name, labels l) v }

def observe (m : Metrics f64) (name : String) (l : List (List Char × List Char)) (d : Nat) :
    Metrics f64 :=
  { m with
    hists := m.hists.alter (name, labels l) fun h =>
      some ((h.getD (Hist.default f64)).observe d) }

def active (m : Metrics f64) (name : String) (l : List (List Char × List Char)) :
    Metrics f64 × ActiveGuard :=
  let key := labels l
  ({ m with gauges := m.gauges.alter (name, key) fun v => some (v.getD 0 + 1) }, { name, key })

/-- What dropping the guard does. -/
def drop (m : Metrics f64) (guard : ActiveGuard) : Metrics f64 :=
  { m with gauges := m.gauges.modify (guard.name, guard.key) fun v => v - 1 }

end Metrics

end StormLb
