import StormLb.Router.Scene

/-!
# What the metrics count

Every way out of a connection counts its request, by hand.  Two do not: a
backend whose name is no server name, and a head that cannot be written to the
backend.
-/

namespace StormLb.Router

open StormLb.Effects StormLb.Text

def requestsTotal : String :=
  "stormlb_router_requests_total"

def upstreamErrorsTotal : String :=
  "stormlb_router_upstream_errors_total"

/-- What was counted, over all labels, and what there was to count. -/
structure Tally where
  requests : Nat
  upstreamErrors : Nat
  /-- A backend was chosen. -/
  dialled : Bool
  /-- A connector was loaded when it was asked for. -/
  loaded : Bool
  entry : Option Backend
  /-- How the first write to the backend ended. -/
  headWrite : Option (Option String)
  /-- The backend sent a byte. -/
  answered : Bool

namespace Tally

/-- Before anything was done for the request, but to look its host up. -/
def fresh (entry : Option Backend) : Tally :=
  ⟨0, 0, false, false, entry, none, false⟩

def add (t : Tally) : Event Op Op.Ans → Tally
  | ⟨.inc name _, _⟩ =>
      if name = requestsTotal then { t with requests := t.requests + 1 }
      else if name = upstreamErrorsTotal then { t with upstreamErrors := t.upstreamErrors + 1 }
      else t
  | ⟨.lookup _, entry⟩ => { t with entry }
  | ⟨.connect _, _⟩ => { t with dialled := true }
  | ⟨.upstream, some _⟩ => { t with loaded := true }
  | ⟨.writeAll stream _, failed⟩ =>
      if stream = .client then t else { t with headWrite := t.headWrite.or (some failed) }
  | ⟨.read stream _, .ok (_ :: _)⟩ => if stream = .client then t else { t with answered := true }
  | _ => t

/-- One request, and an upstream error if a backend was chosen and sent nothing. -/
def Counts (t : Tally) : Prop :=
  t.requests = 1 ∧ t.upstreamErrors = if t.dialled && !t.answered then 1 else 0

/-- The name of the entry is a server name, once there is a connector to use it. -/
def Named (front : Front) (t : Tally) : Prop :=
  t.loaded = true → ∀ backend name, t.entry = some backend → backend.tls = some name →
    front.nameError name = none

/-- The name is a server name, and the head was written if it was to be. -/
structure Faultless (front : Front) (t : Tally) : Prop where
  named : t.Named front
  written : ∀ error, t.headWrite ≠ some (some error)

end Tally

def tally : Log → Tally
  | [] => .fresh none
  | event :: past => (tally past).add event

@[simp] theorem tally_cons (event : Event Op Op.Ans) (past : Log) :
    tally (event :: past) = (tally past).add event :=
  rfl

@[simp] theorem add_requests (t : Tally) (labels : List (String × String)) (answer : Unit) :
    t.add ⟨.inc "stormlb_router_requests_total" labels, answer⟩ =
      { t with requests := t.requests + 1 } := by
  unfold Tally.add
  exact if_pos rfl

@[simp] theorem add_upstreamErrors (t : Tally) (labels : List (String × String)) (answer : Unit) :
    t.add ⟨.inc "stormlb_router_upstream_errors_total" labels, answer⟩ =
      { t with upstreamErrors := t.upstreamErrors + 1 } := by
  have apart : "stormlb_router_upstream_errors_total" ≠ requestsTotal := by decide
  unfold Tally.add
  exact (if_neg apart).trans (if_pos rfl)

theorem add_write {stream : Stream} (upstream : stream ≠ .client) (t : Tally) (bytes : List UInt8)
    (failed : Option String) : t.add ⟨.writeAll stream bytes, failed⟩ =
      { t with headWrite := t.headWrite.or (some failed) } :=
  if_neg upstream

theorem add_read {stream : Stream} (upstream : stream ≠ .client) (t : Tally) (size : Nat) (b : UInt8)
    (bytes : List UInt8) : t.add ⟨.read stream size, .ok (b :: bytes)⟩ = { t with answered := true } :=
  if_neg upstream

/-- Once the head was written, later writes are not the first. -/
theorem add_write_of_written {stream : Stream} (upstream : stream ≠ .client) {t : Tally}
    (written : t.headWrite = some none) (bytes : List UInt8) (failed : Option String) :
    t.add ⟨.writeAll stream bytes, failed⟩ = t := by
  rw [add_write upstream]
  obtain ⟨requests, upstreamErrors, dialled, loaded, entry, headWrite, answered⟩ := t
  cases written
  rfl

/-! ## Between two turns -/

/-- What is counted so far, by how far the half from the backend is. -/
def Progress (t : Tally) : Down → Prop
  | .first => t.requests = 0 ∧ t.upstreamErrors = 0 ∧ t.answered = false
  | .reading => t.requests = 1 ∧ t.upstreamErrors = 0 ∧ t.answered = true
  | .writing _ => t.requests = 1 ∧ t.upstreamErrors = 0 ∧ t.answered = true
  | .closing => t.Counts
  | .done _ => t.Counts

/-- An answer that began was counted. -/
theorem counts_of_answered {t : Tally} (requests : t.requests = 1)
    (upstreamErrors : t.upstreamErrors = 0) (answered : t.answered = true) : t.Counts := by
  refine ⟨requests, ?_⟩
  rw [answered, upstreamErrors, Bool.not_true, Bool.and_false]
  rfl

/-- The head was written, and the answer is counted or still to be. -/
structure Forwarding (front : Front) (s : Splice) (t : Tally) : Prop where
  upstream : s.upstream ≠ .client
  named : t.Named front
  written : t.headWrite = some none
  dialled : t.dialled = true
  progress : Progress t s.down

def Standing (front : Front) : Serving → Log → Prop
  | .reading head, log =>
      tally log = .fresh none ∧ received .client log = head ∧ findHeadEnd head = none
  | .splicing s, log => Forwarding front s (tally log)

/-- A request is counted exactly when nothing was wrong with its backend's name or its head. -/
def Settles (front : Front) (log : Log) : Prop :=
  (findHeadEnd (received .client log)).isSome = true →
    ((tally log).Counts ↔ (tally log).Faultless front)

abbrev Tallied (front : Front) : Serving ⊕ Exit → Log → Prop :=
  LoopPost (Standing front) fun _ => Settles front

/-! ## The ways out -/

variable {front : Front} {log : Log} {entry : Option Backend}

theorem tallied_respond (host code : String) (response : List UInt8)
    (fresh : tally log = .fresh entry) :
    Program.Yields (Tallied front) (respond host code response) log := by
  refine ⟨trivial, fun _ => ⟨trivial, fun _ _ => ?_⟩⟩
  rw [tally_cons, tally_cons, add_requests, fresh]
  exact iff_of_true ⟨rfl, rfl⟩ ⟨nofun, nofun⟩

/-- A backend was chosen, and nothing was counted yet. -/
def chosen (entry : Option Backend) (loaded : Bool) : Tally :=
  { Tally.fresh entry with dialled := true, loaded }

theorem tallied_failUpstream {loaded : Bool} (host kind : String) (error : ServeError)
    (here : tally log = chosen entry loaded) (named : (chosen entry loaded).Named front) :
    Program.Yields (Tallied front) (failUpstream host kind error) log := by
  refine ⟨trivial, fun _ => ⟨trivial, fun _ _ => ?_⟩⟩
  rw [tally_cons, tally_cons, add_upstreamErrors, add_requests, here]
  exact iff_of_true ⟨rfl, rfl⟩ ⟨named, nofun⟩

theorem tallied_forward {loaded : Bool} {stream : Stream} (head : List UInt8) (host : String)
    (upstream : stream ≠ .client) (here : tally log = chosen entry loaded)
    (named : (chosen entry loaded).Named front) :
    Program.Yields (Tallied front) (forward stream head host) log := by
  refine ⟨trivial, fun failed => ?_⟩
  have written : tally (⟨.writeAll stream head, failed⟩ :: log) =
      { chosen entry loaded with headWrite := some failed } := by
    rw [tally_cons, add_write upstream, here]
    rfl
  cases failed with
  | some error =>
      intro _
      rw [written]
      refine iff_of_false ?_ fun faultless => faultless.written error rfl
      rintro ⟨none, _⟩
      cases none
  | none =>
      change Forwarding front _ (tally _)
      rw [written]
      exact ⟨upstream, named, rfl, rfl, rfl, rfl, rfl⟩

theorem tallied_forwardTls {backend : Backend} {name : String} (head : List UInt8) (host addr : String)
    (secured : backend.tls = some name) (here : tally log = chosen (some backend) false) :
    Program.Yields (Tallied front) (front.forwardTls head host addr name) log := by
  refine ⟨trivial, fun loaded => ?_⟩
  cases loaded with
  | none => exact tallied_failUpstream host "tls" _ here nofun
  | some connector =>
      have loaded : tally (⟨.upstream, some connector⟩ :: log) = chosen (some backend) true := by
        rw [tally_cons, here]
        rfl
      simp only [Program.done_bind]
      cases wrong : front.nameError name with
      | some error =>
          intro _
          rw [loaded]
          refine iff_of_false ?_ fun faultless => ?_
          · rintro ⟨none, _⟩
            cases none
          · have right := faultless.named rfl backend name rfl secured
            rw [wrong] at right
            cases right
      | none =>
          have named : (chosen (some backend) true).Named front := by
            rintro _ _ other ⟨⟩ same
            obtain rfl := Option.some.inj (secured.symm.trans same)
            exact wrong
          refine ⟨trivial, fun shaken => ?_⟩
          have shook : tally (⟨.handshake connector name, shaken⟩ :: ⟨.upstream, some connector⟩ :: log) =
              chosen (some backend) true := loaded
          cases shaken with
          | connected => exact tallied_forward head host nofun shook named
          | failed error => exact tallied_failUpstream host "tls" _ shook named
          | timedOut => exact tallied_failUpstream host "tls" _ shook named

theorem tallied_dial {backend : Backend} (tls : Bool) (head : List UInt8) (headEnd : Nat)
    (host : String) (fresh : tally log = .fresh (some backend)) :
    Program.Yields (Tallied front) (front.dial tls head headEnd host backend) log := by
  refine ⟨trivial, fun failed => ?_⟩
  have dialled : tally (⟨.connect backend.addr, failed⟩ :: log) = chosen (some backend) false := by
    rw [tally_cons, fresh]
    rfl
  cases failed with
  | some error => exact tallied_failUpstream host "connect" _ dialled nofun
  | none =>
      simp only [Program.done_bind]
      cases secured : backend.tls with
      | none => exact tallied_forward _ host nofun dialled nofun
      | some name => exact tallied_forwardTls _ host _ secured dialled

theorem tallied_route (tls : Bool) (head : List UInt8) (headEnd : Nat) (host : String)
    (fresh : tally log = .fresh entry) :
    Program.Yields (Tallied front) (front.route tls head headEnd host entry) log := by
  cases entry with
  | some backend => exact tallied_dial tls head headEnd host fresh
  | none =>
      simp only [Front.route]
      split
      · exact tallied_respond _ _ _ fresh
      · exact tallied_respond _ _ _ fresh

/-- Asking for certificates counts nothing. -/
theorem tallied_redirects (front : Front) (tls : Bool) (head : List UInt8)
    (fresh : tally log = .fresh entry) :
    Program.Yields (fun _ after => tally after = .fresh entry) (front.redirects tls head) log := by
  unfold Front.redirects
  cases front.redirect with
  | none => exact fresh
  | some port =>
      dsimp only
      split
      · exact fresh
      · refine ⟨trivial, fun count => ?_⟩
        have same : tally (⟨.certCount, count⟩ :: log) = .fresh entry := fresh
        simp only [Program.done_bind]
        split
        · exact same
        · exact same

theorem tallied_demux (front : Front) (tls : Bool) (head : List UInt8) (headEnd : Nat)
    (fresh : tally log = .fresh none) :
    Program.Yields (Tallied front) (front.demux tls head headEnd) log := by
  dsimp only [Front.demux]
  split
  · exact tallied_respond _ _ _ fresh
  · rename_i host named
    refine ⟨trivial, fun entry => ?_⟩
    have looked : tally (⟨.lookup host, entry⟩ :: log) = .fresh entry := by
      rw [tally_cons, fresh]
      rfl
    simp only [Program.done_bind]
    refine Program.Keeps.bind (tallied_redirects front tls _ looked) fun redirected after same => ?_
    cases redirected with
    | some port => exact tallied_respond _ _ _ same
    | none => exact tallied_route tls head headEnd host same

/-! ## Copying -/

theorem tallied_stepUp {s : Splice} (splicing : Forwarding front s (tally log)) (up : Up) :
    Program.Yields (fun _ after => Forwarding front s (tally after)) (stepUp s.upstream up) log := by
  cases up with
  | reading =>
      refine ⟨trivial, fun answer => ?_⟩
      match answer with
      | .error error => exact splicing
      | .ok [] => exact splicing
      | .ok (b :: bytes) => exact splicing
  | writing bytes =>
      refine ⟨trivial, fun failed => ?_⟩
      have same : tally (⟨.writeAll s.upstream bytes, failed⟩ :: log) = tally log :=
        add_write_of_written splicing.upstream splicing.written bytes failed
      have splicing : Forwarding front s (tally (⟨.writeAll s.upstream bytes, failed⟩ :: log)) :=
        same ▸ splicing
      cases failed with
      | some error => exact splicing
      | none => exact splicing
  | closing result => exact ⟨trivial, fun _ => splicing⟩
  | done result => exact splicing

/-- The half from the backend moves on, and what is counted with it. -/
theorem Forwarding.move {s : Splice} {t t' : Tally} (splicing : Forwarding front s t) {down : Down}
    (loaded : t'.loaded = t.loaded) (entry : t'.entry = t.entry)
    (headWrite : t'.headWrite = t.headWrite) (dialled : t'.dialled = t.dialled)
    (progress : Progress t' down) : Forwarding front { s with down } t' where
  upstream := splicing.upstream
  named := by
    intro here
    rw [entry]
    exact splicing.named (loaded ▸ here)
  written := headWrite.trans splicing.written
  dialled := dialled.trans splicing.dialled
  progress := progress

theorem tallied_stepDown {s : Splice} (splicing : Forwarding front s (tally log)) :
    Program.Yields (fun down after => Forwarding front { s with down } (tally after))
      (stepDown s.host s.upstream s.down) log := by
  have progress := splicing.progress
  cases at_ : s.down with
  | first =>
      rw [at_] at progress
      obtain ⟨requests, upstreamErrors, answered⟩ := progress
      refine ⟨trivial, fun answer => ?_⟩
      -- Without a byte it is an error, and one request.
      have failed (down : Down) (silent : ∀ t : Tally, t.Counts → Progress t down)
          (same : tally (⟨.read s.upstream (16 * 1024), answer⟩ :: log) = tally log) :
          Program.Yields (fun down after => Forwarding front { s with down } (tally after))
            ((recordFirst s.host none).bind fun _ => .done down)
            (⟨.read s.upstream (16 * 1024), answer⟩ :: log) := by
        refine ⟨trivial, fun _ => ⟨trivial, fun _ => ?_⟩⟩
        change Forwarding front { s with down } (tally (_ :: _ :: _))
        rw [tally_cons, tally_cons, add_upstreamErrors, add_requests, same]
        refine splicing.move rfl rfl rfl rfl (silent _ ⟨?_, ?_⟩)
        · exact congrArg (· + 1) requests
        · simp [splicing.dialled, answered, upstreamErrors]
      match answer with
      | .error error => exact failed (.done (.error error)) (fun _ counts => counts) rfl
      | .ok [] => exact failed .closing (fun _ counts => counts) rfl
      | .ok (b :: bytes) =>
          refine ⟨trivial, fun _ => ⟨trivial, fun _ => ?_⟩⟩
          change Forwarding front { s with down := .writing (b :: bytes) } (tally (_ :: _ :: _))
          rw [tally_cons, tally_cons, add_requests, tally_cons, add_read splicing.upstream]
          refine splicing.move rfl rfl rfl rfl ⟨?_, ?_, ?_⟩
          · exact congrArg (· + 1) requests
          · exact upstreamErrors
          · rfl
  | reading =>
      rw [at_] at progress
      obtain ⟨requests, upstreamErrors, answered⟩ := progress
      have counts := counts_of_answered requests upstreamErrors answered
      refine ⟨trivial, fun answer => ?_⟩
      match answer with
      | .error error => exact splicing.move rfl rfl rfl rfl counts
      | .ok [] => exact splicing.move rfl rfl rfl rfl counts
      | .ok (b :: bytes) =>
          change Forwarding front { s with down := .writing (b :: bytes) } (tally (_ :: _))
          rw [tally_cons, add_read splicing.upstream]
          exact splicing.move rfl rfl rfl rfl ⟨requests, upstreamErrors, rfl⟩
  | writing bytes =>
      rw [at_] at progress
      obtain ⟨requests, upstreamErrors, answered⟩ := progress
      have counts := counts_of_answered requests upstreamErrors answered
      refine ⟨trivial, fun failed => ?_⟩
      cases failed with
      | some error => exact splicing.move rfl rfl rfl rfl counts
      | none => exact splicing.move rfl rfl rfl rfl ⟨requests, upstreamErrors, answered⟩
  | closing =>
      rw [at_] at progress
      exact ⟨trivial, fun _ => splicing.move rfl rfl rfl rfl progress⟩
  | done result =>
      rw [at_] at progress
      exact splicing.move rfl rfl rfl rfl progress

theorem tallied_moveUp {s : Splice} (splicing : Forwarding front s (tally log)) :
    Program.Yields (Tallied front) s.moveUp log :=
  (tallied_stepUp splicing s.up).bind fun _ _ moved =>
    ⟨moved.upstream, moved.named, moved.written, moved.dialled, moved.progress⟩

theorem tallied_moveDown {s : Splice} (splicing : Forwarding front s (tally log)) :
    Program.Yields (Tallied front) s.moveDown log :=
  (tallied_stepDown splicing).bind fun _ _ moved => moved

theorem tallied_splice {s : Splice} (splicing : Forwarding front s (tally log)) :
    Program.Yields (Tallied front) s.turn log := by
  unfold Splice.turn
  split
  · rename_i up down _ ended
    intro _
    have counts : (tally log).Counts := by
      have progress := splicing.progress
      rwa [ended] at progress
    refine iff_of_true counts ⟨splicing.named, fun error failed => ?_⟩
    rw [splicing.written] at failed
    cases failed
  · exact tallied_moveDown splicing
  · exact tallied_moveUp splicing
  · refine ⟨trivial, fun half => ?_⟩
    cases half with
    | up => exact tallied_moveUp splicing
    | down => exact tallied_moveDown splicing

/-! ## Every run -/

theorem tallied_turn (front : Front) (tls : Bool) (serving : Serving) (log : Log)
    (standing : Standing front serving log) :
    Program.Yields (Tallied front) (front.turn tls serving) log := by
  cases serving with
  | splicing s => exact tallied_splice standing
  | reading head =>
      obtain ⟨fresh, same, incomplete⟩ := standing
      refine ⟨trivial, fun answer => ?_⟩
      have read : received .client (⟨.read .client 2048, answer⟩ :: log) =
          head ++ readBy .client ⟨.read .client 2048, answer⟩ := by
        rw [received_cons, same]
      -- A head that did not end has nothing to be counted.
      have unended (exit : Exit)
          (still : findHeadEnd (head ++ readBy .client ⟨.read .client 2048, answer⟩) = none) :
          Tallied front (.inr exit) (⟨.read .client 2048, answer⟩ :: log) := by
        intro complete
        rw [read, still] at complete
        cases complete
      match answer with
      | .error error =>
          refine unended (.error (.io error)) ?_
          change findHeadEnd (head ++ []) = none
          rw [List.append_nil]
          exact incomplete
      | .ok [] =>
          refine unended (.ok ()) ?_
          change findHeadEnd (head ++ []) = none
          rw [List.append_nil]
          exact incomplete
      | .ok (b :: bytes) =>
          simp only [Program.done_bind]
          have whole : readBy .client ⟨.read .client 2048, .ok (b :: bytes)⟩ = b :: bytes := rfl
          split
          · exact tallied_demux front tls _ _ fresh
          · rename_i still
            rw [← whole] at still
            split
            · exact unended (.error .headTooLong) still
            · exact ⟨fresh, read, still⟩

/--
When a connection whose head was complete has ended, it was counted as one
request, and as an upstream error if a backend was chosen and sent nothing, if
and only if the backend's name was a server name and the head could be written.
-/
theorem counts_iff_faultless (front : Front) (tls : Bool) (exit : Exit) (log : Log)
    (run : Runs (front.turn tls) serveConn (.done (.inr exit)) log)
    (complete : (findHeadEnd (received .client log)).isSome = true) :
    (tally log).Counts ↔ (tally log).Faultless front := by
  have started : Program.Yields (Tallied front) serveConn [] := ⟨rfl, rfl, rfl⟩
  have ended : Settles front log := run.keeps started (tallied_turn front tls)
  exact ended complete

/-! ## A name that is no server name -/

/-- How a connection ended, if it has. -/
def ended : Prog (Serving ⊕ Exit) → Option Exit
  | .done (.inr exit) => some exit
  | _ => none

theorem eq_of_ended {program : Prog (Serving ⊕ Exit)} {exit : Exit} (same : ended program = some exit) :
    program = .done (.inr exit) := by
  unfold ended at same
  split at same
  · rw [Option.some.inj same]
  · cases same

/-- Names with a blank in them are no server names. -/
def dnsFront : Front where
  redirect := none
  nameError name := if ' ' ∈ name.toList then some "invalid dns name" else none

/-- A request for the metrics of a backend, and its answer. -/
def metricsScene (backend : Backend) : Scene where
  client := bytesOf "GET / HTTP/1.1\r\nHost: metrics.test\r\n\r\n"
  backend := bytesOf "HTTP/1.1 200 OK\r\n\r\n"
  table host := if host = "metrics.test" then some backend else none
  certs := 0

/-- The name was annotated with a blank in it. -/
def misnamed : Backend where
  addr := "127.0.0.1:9096"
  tls := some "metrics node"

def plain : Backend where
  addr := "127.0.0.1:9096"
  tls := none

/-- The node's CA file is loaded. -/
def withConnector (scene : Scene) (log : Log) (op : Op) : op.Ans :=
  match op with
  | .upstream => some ⟨[[1]]⟩
  | op => scene.answer log op

def misnamedPlay : Prog (Serving ⊕ Exit) × Log :=
  play (dnsFront.turn false) (withConnector (metricsScene misnamed)) 40 serveConn []

def plainPlay : Prog (Serving ⊕ Exit) × Log :=
  play (dnsFront.turn false) (withConnector (metricsScene plain)) 40 serveConn []

/-- The connection ends, and was not counted. -/
theorem misnamed_not_counted :
    ¬ ∀ (front : Front) (tls : Bool) (exit : Exit) (log : Log),
      Runs (front.turn tls) serveConn (.done (.inr exit)) log →
        (findHeadEnd (received .client log)).isSome = true → (tally log).Counts := by
  intro counted
  have run : Runs (dnsFront.turn false) serveConn misnamedPlay.1 misnamedPlay.2 :=
    Runs.play (withConnector (metricsScene misnamed)) 40 .start
  have done_ : ended misnamedPlay.1 =
      some (.error (.badName "metrics node" "metrics.test" "invalid dns name")) := by
    decide +kernel
  rw [eq_of_ended done_] at run
  obtain ⟨requests, _⟩ := counted _ _ _ _ run (by decide +kernel)
  revert requests
  decide +kernel

theorem counts_iff_faultless_plain :
    (tally plainPlay.2).Counts ↔ (tally plainPlay.2).Faultless dnsFront := by
  have run : Runs (dnsFront.turn false) serveConn plainPlay.1 plainPlay.2 :=
    Runs.play (withConnector (metricsScene plain)) 40 .start
  have done_ : ended plainPlay.1 = some (.ok ()) := by decide +kernel
  rw [eq_of_ended done_] at run
  exact counts_iff_faultless dnsFront false _ _ run (by decide +kernel)

end StormLb.Router
