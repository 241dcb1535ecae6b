import StormLb.Api.Addressing

/-!
# The token guards the API

A request that does not carry the token of the file is answered the same
whatever the registry holds, and leaves it as it is; one that does is handled as
if no token were configured.
-/

namespace StormLb.Api

open StormLb.Text StormLb.Effects StormLb.Vips

/-! ## The comparison -/

theorem or_eq_zero_iff {first second : UInt8} : first ||| second = 0 ↔ first = 0 ∧ second = 0 := by
  rw [← UInt8.toBitVec_inj, ← UInt8.toBitVec_inj, ← UInt8.toBitVec_inj]
  exact BitVec.or_eq_zero_iff

/-- What differs so far stays different. -/
theorem foldl_different_eq_zero_iff (pairs : List (UInt8 × UInt8)) (different : UInt8) :
    pairs.foldl (fun different (x, y) => different ||| (x ^^^ y)) different = 0 ↔
      different = 0 ∧ ∀ pair ∈ pairs, pair.1 = pair.2 := by
  induction pairs generalizing different with
  | nil => simp
  | cons pair rest ih =>
      rw [List.foldl_cons, ih, or_eq_zero_iff, UInt8.xor_eq_zero_iff, List.forall_mem_cons, and_assoc]

theorem forall_mem_zip_iff {got want : List UInt8} (same : got.length = want.length) :
    (∀ pair ∈ got.zip want, pair.1 = pair.2) ↔ got = want := by
  induction got generalizing want with
  | nil =>
      rw [List.length_nil] at same
      rw [List.length_eq_zero_iff.mp same.symm]
      simp
  | cons x got ih =>
      cases want with
      | nil => cases same
      | cons y want =>
          rw [List.zip_cons_cons, List.forall_mem_cons, ih (Nat.succ.inj same), List.cons.injEq]

/-- The comparison is equality. -/
theorem sameBytes_iff {got want : List UInt8} : sameBytes got want = true ↔ got = want := by
  simp only [sameBytes, decide_eq_true_eq, foldl_different_eq_zero_iff, true_and]
  constructor
  · rintro ⟨same, equal⟩
    exact (forall_mem_zip_iff same).mp equal
  · rintro rfl
    exact ⟨rfl, (forall_mem_zip_iff rfl).mpr rfl⟩

/-! ## The token -/

/-- The header is `Bearer ` and the text of the token file, up to white space around it. -/
structure Carries (outside : Outside) (tokenFile : String) (header : Option String) (text given : String) :
    Prop where
  file : outside.readToString tokenFile = .ok text
  header : header = some ("Bearer " ++ given)
  same : trim given.toList = trim text.toList
  nonempty : trim text.toList ≠ []

/-- The request carries the token. -/
def HasToken (outside : Outside) (tokenFile : String) (req : Request) : Prop :=
  ∃ text given, Carries outside tokenFile req.authorization text given

variable {outside : Outside} {tokenFile : String} {req : Request}

/-- What the header gives is compared with the text of the file. -/
theorem authorize_of_file {text : String} (header : Option String)
    (file : outside.readToString tokenFile = .ok text) (nonempty : trim text.toList ≠ []) :
    authorize outside tokenFile header = .ok () ↔
      ((header.bind fun h => stripPrefix "Bearer ".toList h.toList).map trim).getD [] =
        trim text.toList := by
  rw [authorize, file]
  simp only [if_neg nonempty]
  rw [← utf8_inj, ← sameBytes_iff]
  split
  · rename_i same
    exact iff_of_true rfl same
  · rename_i other
    exact iff_of_false (fun valid => nomatch valid) other

theorem authorize_iff : authorize outside tokenFile req.authorization = .ok () ↔
    HasToken outside tokenFile req := by
  constructor
  · intro valid
    cases file : outside.readToString tokenFile with
    | error error =>
        rw [authorize, file] at valid
        cases valid
    | ok text =>
        by_cases empty : trim text.toList = []
        · rw [authorize, file] at valid
          simp only [if_pos empty] at valid
          cases valid
        · have same := (authorize_of_file req.authorization file empty).mp valid
          cases header : req.authorization with
          | none =>
              rw [header] at same
              exact absurd same.symm empty
          | some value =>
              rw [header, Option.bind_some] at same
              cases stripped : stripPrefix "Bearer ".toList value.toList with
              | none =>
                  rw [stripped] at same
                  exact absurd same.symm empty
              | some given =>
                  rw [stripped] at same
                  refine ⟨text, String.ofList given, file, ?_, ?_, empty⟩
                  · refine header.trans (congrArg some (String.toList_inj.mp ?_))
                    rw [stripPrefix_eq_some_iff.mp stripped, String.toList_append,
                      String.toList_ofList (l := given)]
                  · rw [String.toList_ofList]
                    exact same
  · rintro ⟨text, given, file, header, same, nonempty⟩
    rw [authorize_of_file _ file nonempty, header, Option.bind_some, String.toList_append,
      stripPrefix_eq_some_iff.mpr rfl]
    exact same

/-! ## Without it, with it -/

/-- A refusal asks nothing of the registry. -/
theorem serve_refuse (status : UInt16) (message : String) (node : Node) (r : Registry) :
    (refuse status message).serve node.answer r =
      (some (status, .object [("error", .string message)]), r) :=
  rfl

/-- Without the token the answer is one and the same, and nothing changes. -/
theorem handle_of_not_hasToken (missing : ¬ HasToken outside tokenFile req) :
    ∃ status body, ∀ (node : Node) (r : Registry),
      (handle outside (some tokenFile) req).serve node.answer r = (some (status, body), r) := by
  unfold handle
  by_cases health : req.pathOnly = "/healthz".toList
  · rw [if_pos health]
    by_cases get : req.method = "GET"
    · rw [if_pos get]
      exact ⟨_, _, fun _ _ => rfl⟩
    · rw [if_neg get]
      exact ⟨_, _, serve_refuse 405 "method not allowed"⟩
  · rw [if_neg health]
    cases stripPrefix vipsPath req.pathOnly with
    | none => exact ⟨_, _, serve_refuse 404 _⟩
    | some rest =>
        cases valid : authorized outside (some tokenFile) req.authorization with
        | error refusal => exact ⟨_, _, serve_refuse refusal.1 refusal.2⟩
        | ok _ => exact absurd (authorize_iff.mp valid) missing

/-- With the token it is as if none were configured. -/
theorem handle_of_hasToken (token : HasToken outside tokenFile req) :
    handle outside (some tokenFile) req = handle outside none req := by
  have valid : authorized outside (some tokenFile) req.authorization =
      authorized outside none req.authorization := authorize_iff.mpr token
  simp only [handle, valid]

/--
Without the token of the file there is one answer, whatever node and registry,
and no effect; with it, a request is handled as when no token is configured.
-/
theorem token_guards (outside : Outside) (tokenFile : String) (req : Request) :
    (¬ HasToken outside tokenFile req → ∃ status body, ∀ (node : Node) (r : Registry),
      (handle outside (some tokenFile) req).serve node.answer r = (some (status, body), r)) ∧
    (HasToken outside tokenFile req →
      handle outside (some tokenFile) req = handle outside none req) :=
  ⟨handle_of_not_hasToken, handle_of_hasToken⟩

def deleteK8s (authorization : Option String) : Request where
  method := "DELETE"
  path := "/api/v1/vips/k8s"
  authorization
  body := []

theorem token_guards_deleteK8s :
    (∃ status body, ∀ (node : Node) (r : Registry),
      (handle secretOutside (some "token") (deleteK8s (some "Bearer public"))).serve node.answer r =
        (some (status, body), r)) ∧
    handle secretOutside (some "token") (deleteK8s (some "Bearer  secret")) =
      handle secretOutside none (deleteK8s (some "Bearer  secret")) := by
  constructor
  · refine (token_guards secretOutside "token" _).1 ?_
    rw [← authorize_iff]
    decide
  · refine (token_guards secretOutside "token" _).2 ?_
    rw [← authorize_iff]
    decide

end StormLb.Api
