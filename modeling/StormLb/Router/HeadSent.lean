import StormLb.Router.HostRead
import StormLb.Router.Scene
import StormLb.Router.Steps

/-!
# The head that goes upstream

The first bytes a connection writes upstream are the head it was demultiplexed
by, as it is forwarded, and what was read behind it.
-/

namespace StormLb.Router

open StormLb.Effects StormLb.Text

/-! ## What a head is sent for -/

/-- The hosts that were looked up, with their entries. -/
def lookups : Log → List (String × Option Backend)
  | [] => []
  | ⟨.lookup host, entry⟩ :: past => (host, entry) :: lookups past
  | _ :: past => lookups past

/-- Something is written, and not to the client. -/
def isUpstream : Event Op Op.Ans → Bool
  | ⟨.writeAll stream _, _⟩ => stream ≠ .client
  | _ => false

def WroteUpstream (log : Log) : Prop :=
  ∃ event ∈ log, isUpstream event = true

/-- The head was read, and its host looked up. -/
structure Routed (head : List UInt8) (headEnd : Nat) (host : String) (entry : Option Backend)
    (log : Log) : Prop where
  received : received .client log = head
  complete : findHeadEnd head = some headEnd
  named : hostOf (head.take headEnd) = some host
  chosen : lookups log = [(host, entry)]

/-- The bytes are the head of a request whose host chose the dialled backend, and what followed. -/
structure Sent (tls : Bool) (bytes : List UInt8) (log : Log) (head : List UInt8) (headEnd : Nat)
    (host : String) (backend : Backend) : Prop where
  routed : Routed head headEnd host (some backend) log
  dialled : ⟨.connect backend.addr, none⟩ ∈ log
  written : bytes = forwardedHead tls head headEnd ++ head.drop headEnd

/-- The first thing that is written upstream is such a head. -/
def HeadFirst (tls : Bool) : Op → Log → Prop
  | .writeAll stream bytes, log => stream = .client ∨ WroteUpstream log ∨
      ∃ head headEnd host backend, Sent tls bytes log head headEnd host backend
  | _, _ => True

/-- Between two turns: something went upstream, or the head is what was read. -/
def Reads : Serving → Log → Prop
  | .reading head, log => WroteUpstream log ∨ received .client log = head ∧ lookups log = []
  | .splicing _, log => WroteUpstream log

abbrev ReadsOn : Serving ⊕ Exit → Log → Prop :=
  LoopPost Reads fun _ _ => True

/-! ## The program sends it first -/

section

variable {tls : Bool} {head : List UInt8} {headEnd : Nat} {host : String} {entry : Option Backend}
  {backend : Backend} {log after : Log}

theorem LookedUp.received (looked : LookedUp log host entry after) :
    received .client after = received .client log := by
  refine (looked.fixed fun event past silent => ?_).trans (List.append_nil _)
  obtain ⟨op, answer⟩ := event
  rw [received_cons]
  cases op with
  | read stream size => cases silent
  | _ => exact List.append_nil _

theorem LookedUp.lookups (looked : LookedUp log host entry after) :
    lookups after = (host, entry) :: lookups log := by
  refine looked.fixed fun event past silent => ?_
  obtain ⟨op, answer⟩ := event
  cases op with
  | lookup host => cases silent
  | _ => rfl

theorem headFirst_respond (host code : String) (response : List UInt8) :
    Program.Keeps (HeadFirst tls) ReadsOn (respond host code response) log :=
  ⟨trivial, fun _ => ⟨.inl rfl, fun _ => trivial⟩⟩

theorem headFirst_failUpstream (host kind : String) (error : ServeError) :
    Program.Keeps (HeadFirst tls) ReadsOn (failUpstream host kind error) log :=
  ⟨trivial, fun _ => ⟨trivial, fun _ => trivial⟩⟩

theorem headFirst_forward {stream : Stream} {bytes : List UInt8} (upstream : stream ≠ .client)
    (sent : Sent tls bytes log head headEnd host backend) :
    Program.Keeps (HeadFirst tls) ReadsOn (forward stream bytes host) log := by
  refine ⟨.inr (.inr ⟨head, headEnd, host, backend, sent⟩), fun failed => ?_⟩
  cases failed with
  | some error => exact trivial
  | none => exact ⟨_, List.mem_cons_self, decide_eq_true upstream⟩

/-- Only the head goes upstream, of a request that nothing was looked up for before. -/
theorem headFirst_endings (complete : findHeadEnd head = some headEnd)
    (read : received .client log = head) (first : lookups log = []) :
    KeepsEndings (HeadFirst tls) ReadsOn tls head headEnd log where
  looks _ := trivial
  silent op after silent := by
    cases op with
    | writeAll stream bytes => cases silent
    | _ => exact trivial
  ends program after ending := by
    have routed {host : String} {backend : Backend} (named : hostOf (head.take headEnd) = some host)
        (looked : LookedUp log host (some backend) after) :
        Routed head headEnd host (some backend) after :=
      ⟨looked.received.trans read, complete, named, looked.lookups.trans (congrArg _ first)⟩
    cases ending with
    | unnamed _ => exact headFirst_respond _ _ _
    | redirected response _ => exact headFirst_respond _ _ _
    | alive _ => exact headFirst_respond _ _ _
    | notFound _ => exact headFirst_respond _ _ _
    | unconnected error _ => exact headFirst_failUpstream _ _ _
    | untrusted error _ => exact headFirst_failUpstream _ _ _
    | misnamed error _ => exact trivial
    | overTcp named looked dialled _ =>
        exact headFirst_forward nofun ⟨routed named looked, dialled, passed_eq complete tls⟩
    | overTls named looked dialled _ _ _ =>
        exact headFirst_forward nofun ⟨routed named looked, dialled, passed_eq complete tls⟩

variable (front : Front)

/-- Once something went upstream, everything may. -/
theorem headFirst_of_wroteUpstream (wrote : WroteUpstream log) (program : Prog (Serving ⊕ Exit)) :
    Program.Keeps (HeadFirst tls) ReadsOn program log := by
  have lawful (op : Op) (log : Log) (wrote : WroteUpstream log) : HeadFirst tls op log := by
    cases op with
    | writeAll stream bytes => exact .inr (.inl wrote)
    | _ => exact trivial
  have lasting (event : Event Op Op.Ans) (log : Log) (wrote : WroteUpstream log) :
      WroteUpstream (event :: log) := by
    obtain ⟨earlier, member, upstream⟩ := wrote
    exact ⟨earlier, List.mem_cons_of_mem event member, upstream⟩
  refine (Program.keeps_of_lasting lawful lasting program wrote).weaken fun value after wrote => ?_
  match value with
  | .inr exit => exact trivial
  | .inl (.reading head) => exact .inl wrote
  | .inl (.splicing splice) => exact wrote

theorem headFirst_turn (tls : Bool) (serving : Serving) (log : Log) (reads : Reads serving log) :
    Program.Keeps (HeadFirst tls) ReadsOn (front.turn tls serving) log := by
  cases serving with
  | splicing splice => exact headFirst_of_wroteUpstream reads _
  | reading head =>
      rcases reads with wrote | ⟨read, first⟩
      · exact headFirst_of_wroteUpstream wrote _
      · have more (bytes : List UInt8) :
            received .client (⟨.read .client 2048, .ok bytes⟩ :: log) = head ++ bytes := by
          rw [received_cons, read]
          rfl
        exact keeps_reading front trivial (fun _ _ => trivial)
          (fun bytes _ => .inr ⟨more bytes, first⟩)
          fun bytes headEnd complete => (headFirst_endings complete (more bytes) first).demux front

/-- In every run, what goes upstream first is the head of a request whose host chose the backend. -/
theorem sent_of_runs {program : Prog (Serving ⊕ Exit)} {past : Log}
    (run : Runs (front.turn tls) serveConn program log) {stream : Stream} {bytes : List UInt8}
    {failed : Option String} (written : ⟨.writeAll stream bytes, failed⟩ :: past <:+ log)
    (upstream : stream ≠ .client) (first : ¬ WroteUpstream past) :
    ∃ head headEnd host backend, Sent tls bytes past head headEnd host backend := by
  have started : Program.Keeps (HeadFirst tls) ReadsOn serveConn [] := .inr ⟨rfl, rfl⟩
  rcases run.always started (headFirst_turn front tls) _ past written with same | wrote | sent
  · exact absurd same upstream
  · exact absurd wrote first
  · exact sent

end

end StormLb.Router
