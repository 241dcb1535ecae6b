import StormLb.Effects.Program
import StormLb.Health
import StormLb.Pool

/-!
# The health loop

One round takes the spec and a snapshot of the members, probes them one by one
and writes each one's flag as soon as its probe has ended.
-/

namespace StormLb.Health

open StormLb.Net StormLb.Config StormLb.Effects

inductive Op where
  /-- The checker's spec and client. -/
  | state
  | backends
  /-- Whether the address accepts a connection within so many seconds. -/
  | connect (timeoutSecs : UInt64) (addr : SocketAddr)
  /-- The status of a response, if there is one. -/
  | get (client : Client) (url : String)
  | setHealthy (be : Backend) (ok : Bool)
  /-- Until the checker is woken, or so many seconds have passed. -/
  | notified (timeoutSecs : UInt64)

abbrev Op.Ans : Op → Type
  | .state => HealthSpec × Option Client
  | .backends => List Backend
  | .connect .. => Bool
  | .get .. => Option UInt16
  | .setHealthy .. => Unit
  | .notified _ => Unit

abbrev Prog := Program Op Op.Ans

abbrev Log := History Op Op.Ans

def perform (op : Op) : Prog op.Ans :=
  .call op .done

@[simp] theorem perform_eq (op : Op) : perform op = .call op .done :=
  rfl

/-- Where an http or https check sends its request. -/
def checkUrl (addr : SocketAddr) (spec : HealthSpec) : String :=
  let scheme := if spec.mode = .https then "https" else "http"
  let path := if spec.path.toList.head? = some '/' then spec.path else "/" ++ spec.path
  scheme ++ "://" ++ addr.display ++ path

/-- Probe a single backend per the health spec. -/
def check (addr : SocketAddr) (spec : HealthSpec) (client : Option Client) : Prog Bool :=
  match spec.mode, client with
  | .tcp, _ => perform (.connect (max spec.timeoutSecs 1) addr)
  | _, none => return false
  | _, some client => do
      match ← perform (.get client (checkUrl addr spec)) with
      | some status => return decide (status ∈ spec.expectStatus)
      | none => return false

/-- Probe the members of a snapshot, and write each one's flag. -/
def probeAll (spec : HealthSpec) (client : Option Client) : List Backend → Prog Unit
  | [] => return ()
  | be :: rest => do
      let ok ← check be.addr spec client
      let _ ← perform (.setHealthy be ok)
      probeAll spec client rest

/-- One round of `run`, which goes on forever. -/
def round : Prog (Unit ⊕ Empty) := do
  let (spec, client) ← perform .state
  let members ← perform .backends
  let _ ← probeAll spec client members
  let _ ← perform (.notified (max spec.intervalSecs 1))
  return .inl ()

/-! ## What a round writes -/

/-- The members of the latest snapshot. -/
@[simp] def snapshot : Log → List Backend
  | [] => []
  | ⟨op, answer⟩ :: past =>
      match op, answer with
      | .backends, members => members
      | _, _ => snapshot past

/-- Only flags of the latest snapshot's members are written. -/
def Op.OfSnapshot (op : Op) (past : Log) : Prop :=
  match op with
  | .setHealthy be _ => be ∈ snapshot past
  | _ => True

section

open Program (Keeps)

variable {log : Log}

/-- A probe takes no snapshot. -/
theorem keeps_check (addr : SocketAddr) (spec : HealthSpec) (client : Option Client) :
    Keeps Op.OfSnapshot (fun _ after => snapshot after = snapshot log) (check addr spec client)
      log := by
  unfold check
  split
  · exact ⟨trivial, fun _ => rfl⟩
  · rfl
  · refine ⟨trivial, fun status => ?_⟩
    cases status with
    | none => rfl
    | some status => rfl

theorem keeps_probeAll (spec : HealthSpec) (client : Option Client) {members : List Backend}
    (taken : ∀ be ∈ members, be ∈ snapshot log) :
    Keeps Op.OfSnapshot (fun _ _ => True) (probeAll spec client members) log := by
  induction members generalizing log with
  | nil => trivial
  | cons be rest ih =>
      refine (keeps_check be.addr spec client).bind fun ok after same => ?_
      refine ⟨?_, fun _ => ih fun other member => ?_⟩
      · rw [Op.OfSnapshot, same]
        exact taken be List.mem_cons_self
      · change other ∈ snapshot after
        rw [same]
        exact taken other (List.mem_cons_of_mem _ member)

theorem keeps_round :
    Keeps Op.OfSnapshot (LoopPost (fun _ _ => True) fun _ _ => True) round log := by
  refine ⟨trivial, fun (spec, client) => ⟨trivial, fun members => ?_⟩⟩
  have taken : ∀ be ∈ members,
      be ∈ snapshot (⟨.backends, members⟩ :: ⟨.state, (spec, client)⟩ :: log) :=
    fun be member => member
  refine (keeps_probeAll spec client taken).bind fun _ _ _ => ?_
  exact ⟨trivial, fun _ => trivial⟩

end

end StormLb.Health
