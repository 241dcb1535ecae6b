import StormLb.Router.Serve

/-!
# What a turn can do

Every operation of one turn of a connection and every way in which it ends, so
that a law on connections is a law on these.
-/

namespace StormLb.Router

open StormLb.Effects StormLb.Text

/-! ## Demultiplexing -/

/-- Nothing is read or written, looked up or counted. -/
def Op.isSilent : Op → Bool
  | .certCount => true
  | .connect _ => true
  | .upstream => true
  | .handshake .. => true
  | _ => false

/-- The host was looked up with this entry, and what was done since is silent. -/
def LookedUp (log : Log) (host : String) (entry : Option Backend) (after : Log) : Prop :=
  ∃ newer, after = newer ++ ⟨.lookup host, entry⟩ :: log ∧ ∀ event ∈ newer, event.1.isSilent = true

/-- The program that demultiplexing ends with, and what was done before. -/
inductive Ending (tls : Bool) (head : List UInt8) (headEnd : Nat) (log : Log) :
    Prog (Serving ⊕ Exit) → Log → Prop where
  | unnamed (none : hostOf (head.take headEnd) = none) :
      Ending tls head headEnd log (respond "unrouted" "400" badRequest) log
  | redirected {host : String} {entry : Option Backend} {after : Log} (response : List UInt8)
      (looked : LookedUp log host entry after) :
      Ending tls head headEnd log
        (respond (if entry.isSome then host else "unrouted") "308" response) after
  | alive {host : String} {after : Log} (looked : LookedUp log host none after) :
      Ending tls head headEnd log (respond "unrouted" "200" alive) after
  | notFound {host : String} {after : Log} (looked : LookedUp log host none after) :
      Ending tls head headEnd log (respond "unrouted" "404" (notFound host)) after
  | unconnected {host : String} {backend : Backend} {after : Log} (error : ServeError)
      (looked : LookedUp log host (some backend) after) :
      Ending tls head headEnd log (failUpstream host "connect" error) after
  | untrusted {host : String} {backend : Backend} {after : Log} (error : ServeError)
      (looked : LookedUp log host (some backend) after) :
      Ending tls head headEnd log (failUpstream host "tls" error) after
  | misnamed {host : String} {backend : Backend} {after : Log} (error : ServeError)
      (looked : LookedUp log host (some backend) after) :
      Ending tls head headEnd log (.done (.inr (.error error))) after
  | overTcp {host : String} {backend : Backend} {after : Log}
      (named : hostOf (head.take headEnd) = some host)
      (looked : LookedUp log host (some backend) after)
      (dialled : ⟨.connect backend.addr, none⟩ ∈ after) (plain : backend.tls = none) :
      Ending tls head headEnd log
        (forward .tcp (if tls then forwardedHttps head headEnd else head) host) after
  | overTls {host name : String} {backend : Backend} {connector : Connector} {after : Log}
      (named : hostOf (head.take headEnd) = some host)
      (looked : LookedUp log host (some backend) after)
      (dialled : ⟨.connect backend.addr, none⟩ ∈ after) (https : backend.tls = some name)
      (asked : ⟨.upstream, some connector⟩ ∈ after)
      (connected : ⟨.handshake connector name, .connected⟩ ∈ after) :
      Ending tls head headEnd log
        (forward (.tls connector name) (if tls then forwardedHttps head headEnd else head) host) after

section

variable {log after : Log} {host : String} {entry : Option Backend}

theorem LookedUp.here : LookedUp log host entry (⟨.lookup host, entry⟩ :: log) :=
  ⟨[], rfl, fun _ member => absurd member List.not_mem_nil⟩

theorem LookedUp.later (looked : LookedUp log host entry after) {event : Event Op Op.Ans}
    (silent : event.1.isSilent = true) : LookedUp log host entry (event :: after) := by
  obtain ⟨newer, rfl, quiet⟩ := looked
  exact ⟨event :: newer, rfl, List.forall_mem_cons.mpr ⟨silent, quiet⟩⟩

/-- What no silent event changes is as it was when the host was looked up. -/
theorem LookedUp.fixed {α : Type} {f : Log → α} (looked : LookedUp log host entry after)
    (kept : ∀ event past, event.1.isSilent = true → f (event :: past) = f past) :
    f after = f (⟨.lookup host, entry⟩ :: log) := by
  obtain ⟨newer, rfl, quiet⟩ := looked
  induction newer with
  | nil => rfl
  | cons event newer ih =>
      obtain ⟨silent, quiet⟩ := List.forall_mem_cons.mp quiet
      rw [List.cons_append, kept event _ silent, ih quiet]

theorem LookedUp.mem (looked : LookedUp log host entry after) : ⟨.lookup host, entry⟩ ∈ after := by
  obtain ⟨newer, rfl, _⟩ := looked
  exact List.mem_append_right newer List.mem_cons_self

end

section

variable {law : Op → Log → Prop} {post : Serving ⊕ Exit → Log → Prop} {tls : Bool}
  {head : List UInt8} {headEnd : Nat} {host : String} {backend : Backend} {log after : Log}
  (front : Front)

/-- The law holds of what is done before an ending, and in the endings. -/
structure KeepsEndings (law : Op → Log → Prop) (post : Serving ⊕ Exit → Log → Prop) (tls : Bool)
    (head : List UInt8) (headEnd : Nat) (log : Log) : Prop where
  looks : ∀ host, law (.lookup host) log
  silent : ∀ op after, op.isSilent = true → law op after
  ends : ∀ program after, Ending tls head headEnd log program after →
    Program.Keeps law post program after

namespace KeepsEndings

theorem forwardTls {name : String} (keeps : KeepsEndings law post tls head headEnd log)
    (named : hostOf (head.take headEnd) = some host)
    (looked : LookedUp log host (some backend) after)
    (dialled : ⟨.connect backend.addr, none⟩ ∈ after) (https : backend.tls = some name) :
    Program.Keeps law post
      (front.forwardTls (if tls then forwardedHttps head headEnd else head) host backend.addr name)
      after := by
  refine ⟨keeps.silent _ _ rfl, fun loaded => ?_⟩
  have looked : LookedUp log host (some backend) (⟨.upstream, loaded⟩ :: after) := looked.later rfl
  cases loaded with
  | none => exact keeps.ends _ _ (.untrusted _ looked)
  | some connector =>
      simp only [Program.done_bind]
      split
      · exact keeps.ends _ _ (.misnamed _ looked)
      · refine ⟨keeps.silent _ _ rfl, fun shaken => ?_⟩
        have looked : LookedUp log host (some backend)
            (⟨.handshake connector name, shaken⟩ :: ⟨.upstream, some connector⟩ :: after) :=
          looked.later rfl
        cases shaken with
        | connected =>
            refine keeps.ends _ _ (.overTls named looked ?_ https ?_ List.mem_cons_self)
            · exact List.mem_cons_of_mem _ (List.mem_cons_of_mem _ dialled)
            · exact List.mem_cons_of_mem _ List.mem_cons_self
        | failed error => exact keeps.ends _ _ (.untrusted _ looked)
        | timedOut => exact keeps.ends _ _ (.untrusted _ looked)

theorem dial (keeps : KeepsEndings law post tls head headEnd log)
    (named : hostOf (head.take headEnd) = some host)
    (looked : LookedUp log host (some backend) after) :
    Program.Keeps law post (front.dial tls head headEnd host backend) after := by
  refine ⟨keeps.silent _ _ rfl, fun failed => ?_⟩
  have looked : LookedUp log host (some backend) (⟨.connect backend.addr, failed⟩ :: after) :=
    looked.later rfl
  cases failed with
  | some error => exact keeps.ends _ _ (.unconnected _ looked)
  | none =>
      simp only [Program.done_bind]
      cases protocol : backend.tls with
      | none => exact keeps.ends _ _ (.overTcp named looked List.mem_cons_self protocol)
      | some name => exact keeps.forwardTls front named looked List.mem_cons_self protocol

theorem redirects {entry : Option Backend} (keeps : KeepsEndings law post tls head headEnd log)
    (looked : LookedUp log host entry after) (request : List UInt8) :
    Program.Keeps law (fun _ after => LookedUp log host entry after)
      (front.redirects tls request) after := by
  unfold Front.redirects
  split
  · exact looked
  · split
    · exact looked
    · refine ⟨keeps.silent _ _ rfl, fun count => ?_⟩
      simp only [Program.done_bind]
      split
      · exact looked.later rfl
      · exact looked.later rfl

/-- What keeps a law to its endings keeps it throughout. -/
theorem demux (keeps : KeepsEndings law post tls head headEnd log) :
    Program.Keeps law post (front.demux tls head headEnd) log := by
  dsimp only [Front.demux]
  split
  · rename_i unnamed
    exact keeps.ends _ _ (.unnamed unnamed)
  · rename_i host named
    refine ⟨keeps.looks host, fun entry => ?_⟩
    simp only [Program.done_bind]
    refine (keeps.redirects front .here (head.take headEnd)).bind fun redirected after looked => ?_
    cases redirected with
    | some port => exact keeps.ends _ _ (.redirected _ looked)
    | none =>
        cases entry with
        | some backend => exact keeps.dial front named looked
        | none =>
            simp only [Front.route]
            split
            · exact keeps.ends _ _ (.alive looked)
            · exact keeps.ends _ _ (.notFound looked)

end KeepsEndings

/-- A turn that reads the head goes on reading, demultiplexes, or ends the connection. -/
theorem keeps_reading (reads : law (.read .client 2048) log)
    (leaves : ∀ exit after, post (.inr exit) after)
    (more : ∀ bytes, (head ++ bytes).length ≤ 16 * 1024 →
      post (.inl (.reading (head ++ bytes))) (⟨.read .client 2048, .ok bytes⟩ :: log))
    (complete : ∀ bytes headEnd, findHeadEnd (head ++ bytes) = some headEnd →
      Program.Keeps law post (front.demux tls (head ++ bytes) headEnd)
        (⟨.read .client 2048, .ok bytes⟩ :: log)) :
    Program.Keeps law post (front.turn tls (.reading head)) log := by
  refine ⟨reads, fun answer => ?_⟩
  match answer with
  | .error error => exact leaves _ _
  | .ok [] => exact leaves _ _
  | .ok (b :: bytes) =>
      simp only [Program.done_bind]
      split
      · rename_i headEnd found
        exact complete _ headEnd found
      · split
        · exact leaves _ _
        · rename_i few
          exact more _ (Nat.le_of_not_lt few)

end

/-! ## Copying -/

/-- What the copying for its host and to its stream asks for. -/
inductive SpliceOp (s : Splice) : Op → Prop where
  | read (stream : Stream) (size : Nat) : SpliceOp s (.read stream size)
  | up (bytes : List UInt8) : SpliceOp s (.writeAll s.upstream bytes)
  | down (bytes : List UInt8) : SpliceOp s (.writeAll .client bytes)
  | shutdown (stream : Stream) : SpliceOp s (.shutdown stream)
  | choose : SpliceOp s .choose
  | timed : SpliceOp s
      (.observe "stormlb_router_request_duration_seconds" [("host", s.host)])
  | counted (bytes : List UInt8) : SpliceOp s (.inc "stormlb_router_requests_total"
      [("host", s.host), ("code", (statusCode bytes).getD "other")])
  | unanswered : SpliceOp s
      (.inc "stormlb_router_upstream_errors_total" [("host", s.host), ("kind", "no_response")])
  | failed : SpliceOp s
      (.inc "stormlb_router_requests_total" [("host", s.host), ("code", "error")])

/-- The copying goes on for the same host and to the same stream, or ends. -/
def Continues (s : Splice) : Serving ⊕ Exit → Prop
  | .inl (.splicing next) => next.host = s.host ∧ next.upstream = s.upstream
  | .inl (.reading _) => False
  | .inr _ => True

/-- The law holds of the copying wherever this does, which the copying does not change. -/
structure KeepsSplice (law : Op → Log → Prop) (holds : Log → Prop) (s : Splice) : Prop where
  lawful : ∀ op log, SpliceOp s op → holds log → law op log
  lasting : ∀ op answer log, SpliceOp s op → holds log → holds (⟨op, answer⟩ :: log)

namespace KeepsSplice

variable {law : Op → Log → Prop} {holds : Log → Prop} {s : Splice} {log : Log}

/-- One operation of the copying, and what follows it. -/
theorem call {α : Type} {post : α → Log → Prop} {op : Op} {next : op.Ans → Prog α}
    (keeps : KeepsSplice law holds s) (now : holds log) (mine : SpliceOp s op)
    (rest : ∀ answer, holds (⟨op, answer⟩ :: log) →
      Program.Keeps law post (next answer) (⟨op, answer⟩ :: log)) :
    Program.Keeps law post (.call op next) log :=
  ⟨keeps.lawful _ _ mine now, fun answer => rest answer (keeps.lasting _ answer _ mine now)⟩

theorem stepUp (keeps : KeepsSplice law holds s) (now : holds log) (up : Up) :
    Program.Keeps law (fun _ after => holds after) (stepUp s.upstream up) log := by
  cases up with
  | reading =>
      refine keeps.call now (.read _ _) fun answer still => ?_
      match answer with
      | .error error => exact still
      | .ok [] => exact still
      | .ok (b :: bytes) => exact still
  | writing bytes =>
      refine keeps.call now (.up bytes) fun failed still => ?_
      cases failed with
      | some error => exact still
      | none => exact still
  | closing result => exact keeps.call now (.shutdown _) fun _ still => still
  | done result => exact now

theorem recordFirst (keeps : KeepsSplice law holds s) (now : holds log)
    (first : Option (List UInt8)) :
    Program.Keeps law (fun _ after => holds after) (recordFirst s.host first) log := by
  cases first with
  | some bytes =>
      exact keeps.call now .timed fun _ still => keeps.call still (.counted bytes) fun _ ends => ends
  | none =>
      exact keeps.call now .unanswered fun _ still => keeps.call still .failed fun _ ends => ends

theorem stepDown (keeps : KeepsSplice law holds s) (now : holds log) (down : Down) :
    Program.Keeps law (fun _ after => holds after) (stepDown s.host s.upstream down) log := by
  cases down with
  | first =>
      refine keeps.call now (.read _ _) fun answer still => ?_
      have recorded (first : Option (List UInt8)) (next : Down) :
          Program.Keeps law (fun _ after => holds after)
            ((Router.recordFirst s.host first).bind fun _ => .done next)
            (⟨.read s.upstream (16 * 1024), answer⟩ :: log) :=
        (keeps.recordFirst still first).bind fun _ _ ends => ends
      match answer with
      | .error error => exact recorded none _
      | .ok [] => exact recorded none _
      | .ok (b :: bytes) => exact recorded (some (b :: bytes)) _
  | reading =>
      refine keeps.call now (.read _ _) fun answer still => ?_
      match answer with
      | .error error => exact still
      | .ok [] => exact still
      | .ok (b :: bytes) => exact still
  | writing bytes =>
      refine keeps.call now (.down bytes) fun failed still => ?_
      cases failed with
      | some error => exact still
      | none => exact still
  | closing => exact keeps.call now (.shutdown _) fun _ still => still
  | done result => exact now

theorem moveUp (keeps : KeepsSplice law holds s) (now : holds log) :
    Program.Keeps law (fun next after => holds after ∧ Continues s next) s.moveUp log :=
  (keeps.stepUp now s.up).bind fun _ _ still => ⟨still, rfl, rfl⟩

theorem moveDown (keeps : KeepsSplice law holds s) (now : holds log) :
    Program.Keeps law (fun next after => holds after ∧ Continues s next) s.moveDown log :=
  (keeps.stepDown now s.down).bind fun _ _ still => ⟨still, rfl, rfl⟩

/-- One turn of the copying. -/
theorem turn (keeps : KeepsSplice law holds s) (now : holds log) :
    Program.Keeps law (fun next after => holds after ∧ Continues s next) s.turn log := by
  unfold Splice.turn
  split
  · exact ⟨now, trivial⟩
  · exact keeps.moveDown now
  · exact keeps.moveUp now
  · refine keeps.call now .choose fun half still => ?_
    cases half with
    | up => exact keeps.moveUp still
    | down => exact keeps.moveDown still

end KeepsSplice

end StormLb.Router
