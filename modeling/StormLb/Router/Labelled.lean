import StormLb.Metrics.Registry
import StormLb.Router.Steps

/-!
# The labels a connection records

Labels are built on every way out of a connection.  A host label is `unrouted`,
or a name that was looked up and found; the others come from fixed lists.
-/

namespace StormLb.Router

open StormLb.Effects StormLb.Text

/-! ## Series -/

def digits : List Char :=
  "0123456789".toList

/-- Every text of three digits. -/
def threeDigits : List String :=
  digits.flatMap fun a => digits.flatMap fun b => digits.map fun c => String.ofList [a, b, c]

/-- The values of the label `code`. -/
def codes : List String :=
  "other" :: "error" :: threeDigits

/-- The values of the label `kind`. -/
def kinds : List String :=
  ["connect", "tls", "no_response"]

/-- The values of the label `listener`. -/
def listeners : List String :=
  ["http", "https"]

/-- The series the router has, under hosts that are known. -/
inductive Series (known : String → Prop) : Metrics.Ty → String → List (String × String) → Prop where
  | requests {host code : String} (hosted : host = "unrouted" ∨ known host) (coded : code ∈ codes) :
      Series known .counter "stormlb_router_requests_total" [("host", host), ("code", code)]
  | upstreamErrors {host kind : String} (hosted : known host) (kinded : kind ∈ kinds) :
      Series known .counter "stormlb_router_upstream_errors_total" [("host", host), ("kind", kind)]
  | handshakeErrors : Series known .counter "stormlb_router_tls_handshake_errors_total" []
  | connections {listener : String} (listens : listener ∈ listeners) :
      Series known .counter "stormlb_router_connections_total" [("listener", listener)]
  | connectionsActive {listener : String} (listens : listener ∈ listeners) :
      Series known .gauge "stormlb_router_connections_active" [("listener", listener)]
  | duration {host : String} (hosted : known host) :
      Series known .histogram "stormlb_router_request_duration_seconds" [("host", host)]

/-- More hosts, more series. -/
theorem Series.mono {known more : String → Prop} (grows : ∀ host, known host → more host)
    {ty : Metrics.Ty} {name : String} {labels : List (String × String)}
    (series : Series known ty name labels) : Series more ty name labels := by
  cases series with
  | requests hosted coded => exact .requests (hosted.imp_right (grows _)) coded
  | upstreamErrors hosted kinded => exact .upstreamErrors (grows _ hosted) kinded
  | handshakeErrors => exact .handshakeErrors
  | connections listens => exact .connections listens
  | connectionsActive listens => exact .connectionsActive listens
  | duration hosted => exact .duration (grows _ hosted)

/-! ## Codes -/

theorem threeDigits_mem {a b c : Char} (first : a ∈ digits) (second : b ∈ digits)
    (third : c ∈ digits) : String.ofList [a, b, c] ∈ codes := by
  refine List.mem_cons_of_mem _ (List.mem_cons_of_mem _ ?_)
  exact List.mem_flatMap.mpr ⟨a, first,
    List.mem_flatMap.mpr ⟨b, second, List.mem_map.mpr ⟨c, third, rfl⟩⟩⟩

/-- A byte that is a digit, as a character. -/
theorem digit_mem {b : UInt8} (digit : isAsciiDigit b = true) : Char.ofNat b.toNat ∈ digits := by
  have each : ∀ n : Fin 10, Char.ofNat (48 + n.val) ∈ digits := by decide
  obtain ⟨least, most⟩ := of_decide_eq_true digit
  have least := UInt8.le_iff_toNat_le.mp least
  have most := UInt8.le_iff_toNat_le.mp most
  simp only [UInt8.reduceToNat] at least most
  have here := each ⟨b.toNat - 48, by omega⟩
  rwa [Nat.add_sub_cancel' least] at here

/-- What is read off a status line is three digits. -/
theorem statusCode_mem (bytes : List UInt8) : (statusCode bytes).getD "other" ∈ codes := by
  unfold statusCode
  dsimp only
  split_ifs with read
  · obtain ⟨whole, -, -, all⟩ := read
    have three : ((bytes.take 12).drop 9).length = 3 := by rw [List.length_drop, whole]
    match found : (bytes.take 12).drop 9, three with
    | [a, b, c], _ =>
        rw [found] at all
        simp only [List.all_cons, List.all_nil, Bool.and_true, Bool.and_eq_true] at all
        exact threeDigits_mem (digit_mem all.1) (digit_mem all.2.1) (digit_mem all.2.2)
  · exact List.mem_cons_self ..

/-! ## The law -/

/-- The host was looked up, and it has a route. -/
def Found (log : Log) (host : String) : Prop :=
  ∃ backend, ⟨.lookup host, some backend⟩ ∈ log

theorem Found.later {log after : Log} {host : String} (found : Found log host)
    (suffix : log <:+ after) : Found after host := by
  obtain ⟨backend, looked⟩ := found
  exact ⟨backend, suffix.mem looked⟩

/-- What is recorded is one of the router's series, its host one that was found. -/
def Labelled : Op → Log → Prop
  | .inc name labels, log => Series (Found log) .counter name labels
  | .observe name labels, log => Series (Found log) .histogram name labels
  | _, _ => True

/-- Between two turns: a request not yet demultiplexed, or one for a host that was found. -/
def Hosted : Serving → Log → Prop
  | .reading _, _ => True
  | .splicing splice, log => Found log splice.host

abbrev LabelPost : Serving ⊕ Exit → Log → Prop :=
  LoopPost Hosted fun _ _ => True

/-! ## The program keeps it -/

variable {log : Log} {host : String}

theorem labelled_respond {code : String} (hosted : host = "unrouted" ∨ Found log host)
    (coded : code ∈ codes) (response : List UInt8) :
    Program.Keeps Labelled LabelPost (respond host code response) log :=
  ⟨.requests hosted coded, fun _ => ⟨trivial, fun _ => trivial⟩⟩

theorem labelled_failUpstream {kind : String} (found : Found log host) (kinded : kind ∈ kinds)
    (error : ServeError) :
    Program.Keeps Labelled LabelPost (failUpstream host kind error) log := by
  refine ⟨.upstreamErrors found kinded, fun _ => ⟨.requests (.inr ?_) ?_, fun _ => trivial⟩⟩
  · exact found.later (List.suffix_cons _ _)
  · exact List.mem_cons_of_mem _ (List.mem_cons_self ..)

theorem labelled_forward (upstream : Stream) (head : List UInt8) (found : Found log host) :
    Program.Keeps Labelled LabelPost (forward upstream head host) log := by
  refine ⟨trivial, fun failed => ?_⟩
  cases failed with
  | some error => exact trivial
  | none => exact found.later (List.suffix_cons _ _)

theorem LookedUp.found {after : Log} {backend : Backend}
    (looked : LookedUp log host (some backend) after) : Found after host :=
  ⟨backend, looked.mem⟩

/-- Whatever a request is answered with, its labels are the router's. -/
theorem labelled_endings (tls : Bool) (head : List UInt8) (headEnd : Nat) (log : Log) :
    KeepsEndings Labelled LabelPost tls head headEnd log where
  looks _ := trivial
  silent op after silent := by
    cases op with
    | inc name labels => cases silent
    | observe name labels => cases silent
    | _ => exact trivial
  ends program after ending := by
    have own {code : String} (digits : code ∈ codes) (response : List UInt8) :
        Program.Keeps Labelled LabelPost (respond "unrouted" code response) after :=
      labelled_respond (.inl rfl) digits response
    cases ending with
    | unnamed _ => exact own (threeDigits_mem (by decide) (by decide) (by decide)) _
    | redirected response looked =>
        rename_i host entry
        have digits : "308" ∈ codes := threeDigits_mem (by decide) (by decide) (by decide)
        cases entry with
        | none => exact own digits response
        | some backend => exact labelled_respond (.inr looked.found) digits response
    | alive _ => exact own (threeDigits_mem (by decide) (by decide) (by decide)) _
    | notFound _ => exact own (threeDigits_mem (by decide) (by decide) (by decide)) _
    | unconnected error looked => exact labelled_failUpstream looked.found (by decide) error
    | untrusted error looked => exact labelled_failUpstream looked.found (by decide) error
    | misnamed error _ => exact trivial
    | overTcp _ looked _ _ => exact labelled_forward _ _ looked.found
    | overTls _ looked _ _ _ _ => exact labelled_forward _ _ looked.found

/-! ## Copying -/

/-- The first bytes of an answer are recorded under three digits or `other`, none as `error`. -/
theorem labelled_splice (s : Splice) : KeepsSplice Labelled (Found · s.host) s where
  lawful op log mine found := by
    cases mine with
    | timed => exact .duration found
    | counted bytes => exact .requests (.inr found) (statusCode_mem bytes)
    | unanswered => exact .upstreamErrors found (by decide)
    | failed => exact .requests (.inr found) (List.mem_cons_of_mem _ (List.mem_cons_self ..))
    | _ => exact trivial
  lasting op answer log _ found := found.later (List.suffix_cons _ _)

theorem labelled_turn (front : Front) (tls : Bool) (serving : Serving) (hosted : Hosted serving log) :
    Program.Keeps Labelled LabelPost (front.turn tls serving) log := by
  cases serving with
  | reading head =>
      exact keeps_reading front trivial (fun _ _ => trivial) (fun _ _ => trivial)
        fun bytes headEnd _ => (labelled_endings tls _ headEnd _).demux front
  | splicing s =>
      refine ((labelled_splice s).turn hosted).weaken fun next after ⟨found, continues⟩ => ?_
      match next, continues with
      | .inl (.splicing next), ⟨same, _⟩ =>
          have still : Found after next.host := same.symm ▸ found
          exact still
      | .inr exit, _ => exact trivial

end StormLb.Router
