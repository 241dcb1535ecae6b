import StormLb.Effects.Promise
import StormLb.Router.Serve

/-!
# What a connection sees

A connection between a client and a backend whose bytes are given, however they
are cut into reads, over a table and a number of certificates that do not change:
what was read and written on either side, and what the router chose to do.
-/

namespace StormLb.Router

open StormLb.Effects StormLb.Text

/-! ## Either side -/

inductive Side where
  | client
  | backend
  deriving DecidableEq, Repr

def Stream.side : Stream → Side
  | .client => .client
  | .tcp => .backend
  | .tls .. => .backend

def readBy (side : Side) : Event Op Op.Ans → List UInt8
  | ⟨.read stream _, .ok bytes⟩ => if stream.side = side then bytes else []
  | _ => []

def writtenBy (side : Side) : Event Op Op.Ans → List UInt8
  | ⟨.writeAll stream bytes, none⟩ => if stream.side = side then bytes else []
  | _ => []

/-- What was read from a side, in order. -/
def received (side : Side) : Log → List UInt8
  | [] => []
  | event :: past => received side past ++ readBy side event

/-- What was written to a side, in order. -/
def written (side : Side) : Log → List UInt8
  | [] => []
  | event :: past => written side past ++ writtenBy side event

@[simp] theorem received_nil (side : Side) : received side [] = [] :=
  rfl

@[simp] theorem received_cons (side : Side) (event : Event Op Op.Ans) (past : Log) :
    received side (event :: past) = received side past ++ readBy side event :=
  rfl

@[simp] theorem written_nil (side : Side) : written side [] = [] :=
  rfl

@[simp] theorem written_cons (side : Side) (event : Event Op Op.Ans) (past : Log) :
    written side (event :: past) = written side past ++ writtenBy side event :=
  rfl

theorem written_of_suffix {past log : Log} (side : Side) (suffix : past <:+ log) :
    written side past <+: written side log := by
  obtain ⟨newer, rfl⟩ := suffix
  induction newer with
  | nil => exact List.prefix_refl _
  | cons event newer ih => exact ih.trans (List.prefix_append _ _)

/-- Nothing was read or written. -/
def Quiet (event : Event Op Op.Ans) : Prop :=
  ∀ side, readBy side event = [] ∧ writtenBy side event = []

/-! ## What the router chose -/

/-- Answering the client itself, or dialling a backend. -/
inductive Choice where
  | answer (response : List UInt8)
  | dial (addr : String)
  deriving DecidableEq, Repr

def chosenBy : Event Op Op.Ans → Option Choice
  | ⟨.writeAll .client response, _⟩ => some (.answer response)
  | ⟨.connect addr, _⟩ => some (.dial addr)
  | _ => none

/-- The first thing that was done for the client. -/
def choice : Log → Option Choice
  | [] => none
  | event :: past => (choice past).or (chosenBy event)

@[simp] theorem choice_cons (event : Event Op Op.Ans) (past : Log) :
    choice (event :: past) = (choice past).or (chosenBy event) :=
  rfl

theorem choice_of_suffix {past log : Log} {chosen : Choice} (suffix : past <:+ log)
    (made : choice past = some chosen) : choice log = some chosen := by
  obtain ⟨newer, rfl⟩ := suffix
  induction newer with
  | nil => exact made
  | cons event newer ih => rw [List.cons_append, choice_cons, ih, Option.some_or]

/-! ## The scene -/

/-- The bytes of either side, and what the request is demultiplexed by. -/
structure Scene where
  client : List UInt8
  backend : List UInt8
  table : String → Option Backend
  certs : Nat

/-- No read and no write fails. -/
def unfailing : Promise Op Op.Ans
  | .read .., answer, _ => ∃ bytes, answer = .ok bytes
  | .writeAll .., failed, _ => failed = none
  | _, _, _ => True

/-- A read returns no more than it was given room for. -/
def sized : Promise Op Op.Ans
  | .read _ size, .ok bytes, _ => bytes.length ≤ size
  | _, _, _ => True

namespace Scene

variable (scene : Scene)

def sent : Side → List UInt8
  | .client => scene.client
  | .backend => scene.backend

/-- Reads return the next bytes of their side, and none only at its end; the table stands. -/
def cuts : Promise Op Op.Ans
  | .read stream size, .ok bytes, log =>
      bytes.length ≤ size ∧ received stream.side log ++ bytes <+: scene.sent stream.side ∧
        (bytes = [] → size = 0 ∨ received stream.side log = scene.sent stream.side)
  | .lookup host, entry, _ => entry = scene.table host
  | .certCount, count, _ => count = scene.certs
  | _, _, _ => True

theorem received_cut {scene : Scene} {log : Log} (admitted : log.Admitted scene.cuts)
    (side : Side) : received side log <+: scene.sent side := by
  induction log with
  | nil => exact List.nil_prefix
  | cons event past ih =>
      obtain ⟨promised, before⟩ := History.admitted_cons.mp admitted
      have still := ih before
      obtain ⟨op, answer⟩ := event
      rw [received_cons]
      cases op with
      | read stream size =>
          cases answer with
          | error error => simpa only [readBy, List.append_nil] using still
          | ok bytes =>
              rw [readBy]
              split
              · rename_i here
                exact here ▸ promised.2.1
              · rwa [List.append_nil]
      | _ => simpa only [readBy, List.append_nil] using still

theorem sized_of_cuts {scene : Scene} {log : Log} (admitted : log.Admitted scene.cuts) :
    log.Admitted sized := by
  intro event past suffix
  have promised := admitted event past suffix
  obtain ⟨op, answer⟩ := event
  cases op with
  | read stream size =>
      cases answer with
      | error error => exact trivial
      | ok bytes => exact promised.1
  | _ => exact trivial

/-- Reads as large as can be, and no failure but of TLS. -/
def answer (log : Log) (op : Op) : op.Ans :=
  match op with
  | .read stream size =>
      .ok (((scene.sent stream.side).drop (received stream.side log).length).take size)
  | .writeAll .. => none
  | .shutdown _ => ()
  | .lookup host => scene.table host
  | .certCount => scene.certs
  | .connect _ => none
  | .upstream => none
  | .handshake .. => .timedOut
  | .inc .. => ()
  | .observe .. => ()
  | .choose => .up

theorem answer_cuts (op : Op) (log : Log) (admitted : log.Admitted scene.cuts) :
    scene.cuts op (scene.answer log op) log := by
  cases op with
  | read stream size =>
      obtain ⟨rest, whole⟩ := received_cut admitted stream.side
      refine ⟨List.length_take_le _ _, ?_, fun none => ?_⟩
      · rw [← whole, List.drop_left, List.prefix_append_right_inj]
        exact List.take_prefix _ _
      · rw [← whole, List.drop_left, List.take_eq_nil_iff] at none
        rcases none with unread | ended
        · exact .inl unread
        · rw [ended, List.append_nil] at whole
          exact .inr whole
  | lookup host => exact rfl
  | certCount => exact rfl
  | _ => exact trivial

theorem answer_unfailing (op : Op) (log : Log) : unfailing op (scene.answer log op) log := by
  cases op with
  | read stream size => exact ⟨_, rfl⟩
  | writeAll stream bytes => exact rfl
  | _ => exact trivial

theorem answer_promised (op : Op) (log : Log)
    (admitted : log.Admitted (scene.cuts.and unfailing)) :
    (scene.cuts.and unfailing) op (scene.answer log op) log :=
  ⟨scene.answer_cuts op log (History.admitted_and.mp admitted).1, scene.answer_unfailing op log⟩

end Scene

/-! ## What the router is to do -/

/-- An answer of the router's own, or the backend of the host. -/
inductive Decision where
  | answer (response : List UInt8)
  | forward (backend : Backend)

def Decision.choice : Decision → Choice
  | .answer response => .answer response
  | .forward backend => .dial backend.addr

namespace Scene

variable (scene : Scene)

/-- The port a request is redirected to. -/
def redirected (front : Front) (tls : Bool) (request : List UInt8) : Option UInt16 :=
  front.redirect.filter fun _ =>
    !tls && decide (0 < scene.certs ∧ requestPath request ≠ some "/healthz")

/-- What becomes of a request with this head. -/
def decision (front : Front) (tls : Bool) (request : List UInt8) : Decision :=
  match hostOf request with
  | none => .answer badRequest
  | some host =>
      match scene.redirected front tls request with
      | some port => .answer (redirectTo host port ((requestTarget request).getD "/"))
      | none =>
          match scene.table host with
          | some backend => .forward backend
          | none =>
              .answer (if requestPath request = some "/healthz" then alive else notFound host)

/-- Whether a request is redirected does not depend on when the certificates are counted. -/
theorem under_redirects (front : Front) (tls : Bool) (request : List UInt8) (log : Log) :
    Program.Under scene.cuts
      (fun redirected after => redirected = scene.redirected front tls request ∧
        (after = log ∨ after = ⟨.certCount, scene.certs⟩ :: log))
      (front.redirects tls request) log := by
  unfold Front.redirects Scene.redirected
  cases front.redirect with
  | none => exact ⟨rfl, .inl rfl⟩
  | some port =>
      dsimp only
      cases tls with
      | true => exact ⟨rfl, .inl rfl⟩
      | false =>
          intro count counted
          have same : count = scene.certs := counted
          subst same
          simp only [Program.done_bind]
          split
          · rename_i goes
            exact ⟨by simp [Option.filter, goes], .inr rfl⟩
          · rename_i stays
            exact ⟨by simp [Option.filter, stays], .inr rfl⟩

/-- What is passed on of the client's bytes. -/
def passed (tls : Bool) (headEnd : Nat) (bytes : List UInt8) : List UInt8 :=
  if tls then forwardedHttps bytes headEnd else bytes

theorem passed_append {headEnd : Nat} {bytes : List UInt8} (tls : Bool)
    (within : headEnd ≤ bytes.length) (more : List UInt8) :
    passed tls headEnd (bytes ++ more) = passed tls headEnd bytes ++ more := by
  cases tls with
  | false => rfl
  | true => exact forwardedHttps_append within more

/-- What the client is to receive. -/
def toClient : Decision → List UInt8
  | .answer response => response
  | .forward _ => scene.backend

/-- What the backend is to receive. -/
def toBackend (tls : Bool) (headEnd : Nat) : Decision → List UInt8
  | .answer _ => []
  | .forward _ => passed tls headEnd scene.client

end Scene

/-- What kept a connection from its backend, with the error that says so. -/
inductive Unreached (front : Front) (backend : Backend) (log : Log) : ServeError → Prop where
  | connect {host error : String} (failed : ⟨.connect backend.addr, some error⟩ ∈ log) :
      Unreached front backend log (.connect backend.addr host error)
  | noConnector {name host : String} (https : backend.tls = some name)
      (missing : ⟨.upstream, none⟩ ∈ log) :
      Unreached front backend log (.noConnector backend.addr host)
  | badName {connector : Connector} {name host error : String} (https : backend.tls = some name)
      (loaded : ⟨.upstream, some connector⟩ ∈ log) (bad : front.nameError name = some error) :
      Unreached front backend log (.badName name host error)
  | tls {connector : Connector} {name host error : String} (https : backend.tls = some name)
      (failed : ⟨.handshake connector name, .failed error⟩ ∈ log) :
      Unreached front backend log (.tls backend.addr name host error)
  | tlsTimedOut {connector : Connector} {name host : String} (https : backend.tls = some name)
      (late : ⟨.handshake connector name, .timedOut⟩ ∈ log) :
      Unreached front backend log (.tlsTimedOut backend.addr name host)

/-- More may be done before the connection ends. -/
theorem Unreached.later {front : Front} {backend : Backend} {past log : Log} {error : ServeError}
    (suffix : past <:+ log) (unreached : Unreached front backend past error) :
    Unreached front backend log error := by
  have still {event : Event Op Op.Ans} (member : event ∈ past) : event ∈ log := suffix.subset member
  cases unreached with
  | connect failed => exact .connect (still failed)
  | noConnector https missing => exact .noConnector https (still missing)
  | badName https loaded bad => exact .badName https (still loaded) bad
  | tls https failed => exact .tls https (still failed)
  | tlsTimedOut https late => exact .tlsTimedOut https (still late)

/-- How a connection ends on which nothing failed. -/
inductive Scene.Outcome (scene : Scene) (front : Front) (tls : Bool) (headEnd : Nat)
    (decision : Decision) (exit : Exit) (log : Log) : Prop where
  | delivered (ended : exit = .ok ()) (toClient : written .client log = scene.toClient decision)
      (toBackend : written .backend log = scene.toBackend tls headEnd decision)
  | unreached (backend : Backend) (error : ServeError) (forwards : decision = .forward backend)
      (ended : exit = .error error) (why : Unreached front backend log error)
      (nothing : ∀ side, written side log = [])

end StormLb.Router
