import StormLb.Router.Steps
import StormLb.Router.Table

/-!
# HTTPS routes fail closed

A connection writes to its backend only through the stream that its table entry
calls for: the dialled one when the entry has no name, otherwise one that a
connector returned for that name.  The entry of an https route has a name, and a
route with an unknown protocol has no entry.
-/

namespace StormLb.Router

open StormLb.Effects StormLb.Text

/-! ## The law of upstream writes -/

/-- The table entry the request was demultiplexed through. -/
def demuxed : Log → Option Backend
  | [] => none
  | ⟨.lookup _, entry⟩ :: _ => entry
  | _ :: past => demuxed past

/-- The stream a connector returned for a name, once it was asked of the one that is loaded. -/
def Verified (stream : Stream) (name : String) (log : Log) : Prop :=
  ∃ connector, stream = .tls connector name ∧ ⟨.upstream, some connector⟩ ∈ log ∧
    ⟨.handshake connector name, .connected⟩ ∈ log

/-- The stream the entry calls for. -/
def CalledFor (stream : Stream) (log : Log) : Prop :=
  ∃ backend, demuxed log = some backend ∧
    match backend.tls with
    | none => stream = .tcp
    | some name => Verified stream name log

/-- What is written goes to the client, or where the entry says. -/
def Lawful : Op → Log → Prop
  | .writeAll stream _, log => stream = .client ∨ CalledFor stream log
  | _, _ => True

/-- Between two turns: a request not yet demultiplexed, or the stream called for. -/
def Stands : Serving → Log → Prop
  | .reading _, _ => True
  | .splicing splice, log => CalledFor splice.upstream log

abbrev Post : Serving ⊕ Exit → Log → Prop :=
  LoopPost Stands fun _ _ => True

theorem Verified.later {stream : Stream} {name : String} {log : Log}
    (verified : Verified stream name log) (event : Event Op Op.Ans) :
    Verified stream name (event :: log) := by
  obtain ⟨connector, same, asked, connected⟩ := verified
  exact ⟨connector, same, List.mem_cons_of_mem _ asked, List.mem_cons_of_mem _ connected⟩

/-- What was called for still is, until there is another lookup. -/
theorem CalledFor.later {stream : Stream} {log : Log} (calledFor : CalledFor stream log)
    {event : Event Op Op.Ans} (other : demuxed (event :: log) = demuxed log) :
    CalledFor stream (event :: log) := by
  obtain ⟨backend, entry, stands⟩ := calledFor
  refine ⟨backend, other.trans entry, ?_⟩
  split at stands
  · exact stands
  · exact stands.later event

/-! ## The program keeps it -/

theorem LookedUp.demuxed {log after : Log} {host : String} {entry : Option Backend}
    (looked : LookedUp log host entry after) : demuxed after = entry := by
  refine looked.fixed fun event past silent => ?_
  obtain ⟨op, answer⟩ := event
  cases op with
  | lookup host => cases silent
  | _ => rfl

theorem keeps_respond (host code : String) (response : List UInt8) (log : Log) :
    Program.Keeps Lawful Post (respond host code response) log :=
  ⟨trivial, fun _ => ⟨.inl rfl, fun _ => trivial⟩⟩

theorem keeps_failUpstream (host kind : String) (error : ServeError) (log : Log) :
    Program.Keeps Lawful Post (failUpstream host kind error) log :=
  ⟨trivial, fun _ => ⟨trivial, fun _ => trivial⟩⟩

theorem keeps_forward {stream : Stream} {log : Log} (head : List UInt8) (host : String)
    (calledFor : CalledFor stream log) :
    Program.Keeps Lawful Post (forward stream head host) log := by
  refine ⟨.inr calledFor, fun failed => ?_⟩
  cases failed with
  | some error => exact trivial
  | none => exact calledFor.later rfl

/-- Only a forwarded head goes upstream, to the stream the entry calls for. -/
theorem lawful_endings (tls : Bool) (head : List UInt8) (headEnd : Nat) (log : Log) :
    KeepsEndings Lawful Post tls head headEnd log where
  looks _ := trivial
  silent op after silent := by
    cases op with
    | writeAll stream bytes => cases silent
    | _ => exact trivial
  ends program after ending := by
    cases ending with
    | unnamed _ => exact keeps_respond _ _ _ _
    | redirected response _ => exact keeps_respond _ _ _ _
    | alive _ => exact keeps_respond _ _ _ _
    | notFound _ => exact keeps_respond _ _ _ _
    | unconnected error _ => exact keeps_failUpstream _ _ _ _
    | untrusted error _ => exact keeps_failUpstream _ _ _ _
    | misnamed error _ => exact trivial
    | overTcp _ looked _ plain =>
        refine keeps_forward _ _ ⟨_, looked.demuxed, ?_⟩
        rw [plain]
    | overTls _ looked _ https asked connected =>
        refine keeps_forward _ _ ⟨_, looked.demuxed, ?_⟩
        rw [https]
        exact ⟨_, rfl, asked, connected⟩

/-- The copying writes to the client and to the stream called for. -/
theorem lawful_splice (s : Splice) : KeepsSplice Lawful (CalledFor s.upstream) s where
  lawful op log mine calledFor := by
    cases mine with
    | up bytes => exact .inr calledFor
    | down bytes => exact .inl rfl
    | _ => exact trivial
  lasting op answer log mine calledFor := by
    refine calledFor.later ?_
    cases mine with
    | _ => rfl

variable (front : Front)

theorem keeps_turn (tls : Bool) (serving : Serving) (log : Log) (stands : Stands serving log) :
    Program.Keeps Lawful Post (front.turn tls serving) log := by
  cases serving with
  | reading head =>
      exact keeps_reading front trivial (fun _ _ => trivial) (fun _ _ => trivial)
        fun bytes headEnd _ => (lawful_endings tls _ headEnd _).demux front
  | splicing s =>
      refine ((lawful_splice s).turn stands).weaken fun next after ⟨calledFor, continues⟩ => ?_
      match next, continues with
      | .inl (.splicing next), ⟨_, same⟩ =>
          have still : CalledFor next.upstream after := same.symm ▸ calledFor
          exact still
      | .inr exit, _ => exact trivial

/-- In every run, what is written upstream goes where the entry says. -/
theorem calledFor_of_runs {tls : Bool} {program : Prog (Serving ⊕ Exit)} {log past : Log}
    (run : Runs (front.turn tls) serveConn program log) {stream : Stream} {bytes : List UInt8}
    {failed : Option String} (written : ⟨.writeAll stream bytes, failed⟩ :: past <:+ log) :
    stream = .client ∨ CalledFor stream past := by
  have started : Program.Keeps Lawful Post serveConn [] := trivial
  exact run.always started (keeps_turn front tls) _ past written

/-! ## From annotation to wire -/

/--
No byte of a request demultiplexed through this entry goes upstream, in any run,
but through a stream that the loaded connector returned for the name.
-/
def OnlyVerified (backend : Backend) (name : String) : Prop :=
  ∀ (front : Front) (tls : Bool) (program : Prog (Serving ⊕ Exit)) (log past : Log)
    (stream : Stream) (bytes : List UInt8) (failed : Option String),
    Runs (front.turn tls) serveConn program log → ⟨.writeAll stream bytes, failed⟩ :: past <:+ log →
      demuxed past = some backend → stream ≠ .client → Verified stream name past

theorem onlyVerified_of_tls {backend : Backend} {name : String} (named : backend.tls = some name) :
    OnlyVerified backend name := by
  intro front tls program log past stream bytes failed run written entry upstream
  rcases calledFor_of_runs front run written with same | ⟨called, here, verified⟩
  · exact absurd same upstream
  · obtain rfl := Option.some.inj (here.symm.trans entry)
    rw [named] at verified
    exact verified

/-- What the annotations of a route say of its entries. -/
structure FailsClosed (route : Json) : Prop where
  https : ∀ protocol, (annotations route).get protocolKey = .string protocol →
    lowercase protocol = "https" →
      ∀ addr host backend, Contributes route addr host backend →
        OnlyVerified backend (serverName route addr)
  unknown : ∀ protocol, (annotations route).get protocolKey = .string protocol →
    lowercase protocol ≠ "http" → lowercase protocol ≠ "https" →
      ∀ addr host backend, ¬ Contributes route addr host backend

/-- What the protocol annotation makes of an address. -/
theorem withProtocol_of_string {route : Json} {protocol : String} (addr : String)
    (value : (annotations route).get protocolKey = .string protocol) :
    withProtocol route addr =
      if lowercase protocol = "http" then .ok { addr, tls := none }
      else if lowercase protocol = "https" then .ok { addr, tls := some (serverName route addr) }
      else .error (.badProtocol (lowercase protocol)) := by
  have read : annotated route protocolKey = some protocol := Json.asStr_eq_some.mpr value
  rw [withProtocol, read]
  rfl

theorem failsClosed (route : Json) : FailsClosed route := by
  constructor
  · rintro protocol value isHttps addr host backend ⟨made, _⟩
    rw [withProtocol_of_string addr value, isHttps, if_neg (by decide), if_pos rfl] at made
    cases made
    exact onlyVerified_of_tls rfl
  · rintro protocol value notHttp notHttps addr host backend ⟨made, _⟩
    rw [withProtocol_of_string addr value, if_neg notHttp, if_neg notHttps] at made
    cases made

/--
Every entry of a fetched table comes from a listed route, and every route fails
closed.
-/
theorem routes_fail_closed (api : String) (token : Option String) :
    Program.Yields
      (fun fetched log => ∀ table host backend, fetched = .ok table → table[host]? = some backend →
        ∃ route addr, Listed api token log route ∧ Contributes route addr host backend)
      (fetchTable api token) [] ∧ ∀ route, FailsClosed route :=
  ⟨fetchTable_yields api token, failsClosed⟩

/-- Every node's metrics, over TLS and under a name of their own. -/
def metricsRoute : Json :=
  .object [
    ("metadata", .object [("annotations", .object [
      (backendKey, .string "127.0.0.1:9096"),
      (protocolKey, .string "HTTPS"),
      (serverNameKey, .string "metrics.node")])]),
    ("spec", .object [("hostnames", .array [.string "Metrics.test"])])]

def metricsBackend : Backend where
  addr := "127.0.0.1:9096"
  tls := some "metrics.node"

/-- A plain listener, to which every name is a server name. -/
def plainFront : Front where
  redirect := none
  nameError _ := none

/-- A request for the metrics, and a backend that proves its name to the cluster CA. -/
def metricsRequest (_ : Log) (op : Op) : op.Ans :=
  match op with
  | .read .. => .ok (bytesOf "GET / HTTP/1.1\r\nHost: metrics.test\r\n\r\n")
  | .writeAll .. => none
  | .shutdown _ => ()
  | .lookup host => if host = "metrics.test" then some metricsBackend else none
  | .certCount => (0 : Nat)
  | .connect _ => none
  | .upstream => some ⟨[[1]]⟩
  | .handshake .. => .connected
  | .inc .. => ()
  | .observe .. => ()
  | .choose => .up

/-- The head is read, demultiplexed and forwarded. -/
def metricsLog : Log :=
  (play (plainFront.turn false) metricsRequest 7 serveConn []).2

-- The last thing done is to write the head, to the stream verified for the annotated name.
theorem routes_fail_closed_metrics :
    metricsLog.head?.map Sigma.fst = some (.writeAll (.tls ⟨[[1]]⟩ "metrics.node")
      (bytesOf "GET / HTTP/1.1\r\nHost: metrics.test\r\n\r\n")) ∧
      Verified (.tls ⟨[[1]]⟩ "metrics.node") "metrics.node" metricsLog.tail := by
  have written : metricsLog.head?.map Sigma.fst = some (.writeAll (.tls ⟨[[1]]⟩ "metrics.node")
      (bytesOf "GET / HTTP/1.1\r\nHost: metrics.test\r\n\r\n")) := by decide +kernel
  refine ⟨written, ?_⟩
  obtain ⟨⟨op, failed⟩, first, rfl⟩ := Option.map_eq_some_iff.mp written
  have newest := (List.eq_cons_of_mem_head? first).symm
  have contributes : Contributes metricsRoute "127.0.0.1:9096" "metrics.test" metricsBackend :=
    ⟨rfl, by decide +kernel⟩
  have run : Runs (plainFront.turn false) serveConn _ metricsLog :=
    Runs.play metricsRequest 7 .start
  exact ((routes_fail_closed "https://127.0.0.1:6443" none).2 metricsRoute).https "HTTPS" rfl
    (by decide) _ _ _ contributes plainFront false _ _ _ _ _ _ run
    ⟨[], newest⟩ (by decide +kernel) (by simp)

end StormLb.Router
