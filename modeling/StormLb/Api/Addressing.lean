import StormLb.Api
import StormLb.Vips.Invariant

/-!
# Which VIP a request is about

A path names a VIP by what follows `/api/v1/vips/`.  The API cuts the path after
`/api/v1/vips` and drops the byte that follows, whatever it is: another
character of one byte stands for the slash, and a longer one ends in a panic.
-/

namespace StormLb.Api

open StormLb.Text StormLb.Effects StormLb.Vips

/-- The path is `/api/v1/vips/` followed by the name. -/
structure PathOf (path : List Char) (name : String) : Prop where
  path : path = vipsPath ++ '/' :: name.toList
  nonempty : name ≠ ""
  noSlash : '/' ∉ name.toList

/-- The paths the API has. -/
def Known (path : List Char) : Prop :=
  path = "/healthz".toList ∨ path = vipsPath ∨ path = vipsPath ++ ['/'] ∨ ∃ name, PathOf path name

/-- The operation reads or changes the VIP of this name. -/
def Op.Names (op : Op) (name : String) : Prop :=
  match op with
  | .list => False
  | .get named => named = name
  | .apply named _ => named = name
  | .remove named => named = name

/-- The operation is about the VIP that the path names. -/
def Op.Addressed (path : List Char) (op : Op) (_ : Log) : Prop :=
  ∀ name, op.Names name → PathOf path name

/-- There is a reply; of a path the API does not have it is 404, and nothing was asked. -/
def Answered (path : List Char) (reply : Reply) (log : Log) : Prop :=
  ∃ status body, reply = some (status, body) ∧ (¬ Known path → status = 404 ∧ log = [])

/-- The request is addressed exactly, and answered. -/
def Exact (outside : Outside) (tokenFile : Option String) (req : Request) : Prop :=
  Program.Keeps (Op.Addressed req.pathOnly) (Answered req.pathOnly) (handle outside tokenFile req) []

/--
The path runs on after `/api/v1/vips` with a character that is no slash, and
that is either more than a byte or followed by a name.
-/
def RunsOn (path : List Char) : Prop :=
  ∃ c rest, path = vipsPath ++ c :: rest ∧ c ≠ '/' ∧
    (c.utf8Size = 1 → rest ≠ [] ∧ '/' ∉ rest)

section

open Program (Keeps)

variable {outside : Outside} {tokenFile : Option String} {req : Request} {path : List Char}

/-- Whatever is replied to a path the API has is an answer. -/
theorem keeps_reply (known : Known path) (status : UInt16) (body : Json) (log : Log) :
    Keeps (Op.Addressed path) (Answered path) (reply status body) log :=
  ⟨status, body, rfl, fun unknown => absurd known unknown⟩

theorem keeps_noSuchPath (asked : List Char) :
    Keeps (Op.Addressed path) (Answered path) (noSuchPath asked) [] :=
  ⟨404, _, rfl, fun _ => ⟨rfl, rfl⟩⟩

/-- A request for the VIP that the path names asks for that VIP only. -/
theorem keeps_handleVip {name : String} (named : PathOf path name) (log : Log) :
    Keeps (Op.Addressed path) (Answered path) (handleVip outside name req) log := by
  have known : Known path := .inr (.inr (.inr ⟨name, named⟩))
  have addressed (op : Op) (same : ∀ other, op.Names other → name = other) (past : Log) :
      op.Addressed path past := by
    intro other names
    rw [← same other names]
    exact named
  unfold handleVip
  split
  · refine ⟨addressed (.get name) (fun _ same => same) _, fun found => ?_⟩
    cases found with
    | none => exact keeps_reply known _ _ _
    | some v => exact keeps_reply known _ _ _
  · split
    · exact keeps_reply known _ _ _
    · rename_i spec _
      refine ⟨addressed (.apply name spec) (fun _ same => same) _, fun result => ?_⟩
      cases result with
      | error e => exact keeps_reply known _ _ _
      | ok created =>
          exact ⟨addressed (.get name) (fun _ same => same) _, fun shown => keeps_reply known _ _ _⟩
  · refine ⟨addressed (.remove name) (fun _ same => same) _, fun result => ?_⟩
    cases result with
    | error e => exact keeps_reply known _ _ _
    | ok _ => exact keeps_reply known _ _ _
  · exact keeps_reply known _ _ _

/-- A request for a VIP that the path does not name is not exact. -/
theorem not_keeps_handleVip {name : String} (other : ¬ PathOf path name) (unknown : ¬ Known path) :
    ¬ Keeps (Op.Addressed path) (Answered path) (handleVip outside name req) [] := by
  have wrong {status : UInt16} {body : Json} (differs : status ≠ 404) :
      ¬ Keeps (Op.Addressed path) (Answered path) (reply status body) [] := by
    rintro ⟨_, _, same, answered⟩
    cases same
    exact differs (answered unknown).1
  unfold handleVip
  split
  · exact fun keeps => other (keeps.1 name rfl)
  · split
    · exact wrong (by decide)
    · exact fun keeps => other (keeps.1 name rfl)
  · exact fun keeps => other (keeps.1 name rfl)
  · exact wrong (by decide)

theorem stripPrefix_vipsPath_healthz : stripPrefix vipsPath "/healthz".toList = none := by
  decide

/-- A path that runs on is none the API has. -/
theorem RunsOn.not_known (runsOn : RunsOn path) : ¬ Known path := by
  obtain ⟨c, rest, rfl, noSlash, _⟩ := runsOn
  have ends {tail : List Char} (same : vipsPath ++ c :: rest = vipsPath ++ tail) : c :: rest = tail :=
    List.append_cancel_left same
  rintro (health | bare | slash | ⟨name, named⟩)
  · have stripped := stripPrefix_eq_some_iff.mpr health.symm
    rw [stripPrefix_vipsPath_healthz] at stripped
    cases stripped
  · cases ends (bare.trans (List.append_nil _).symm)
  · exact noSlash (List.cons.inj (ends slash)).1
  · exact noSlash (List.cons.inj (ends named.path)).1

/-- With more after `/api/v1/vips` than a slash, only a slash before a name is exact. -/
theorem keeps_longer_iff {c : Char} {rest : List Char} (whole : path = vipsPath ++ c :: rest)
    (longer : c :: rest ≠ ['/']) :
    Keeps (Op.Addressed path) (Answered path)
        (if c.utf8Size = 1 then
          if '/' ∈ rest ∨ rest = [] then noSuchPath path
          else handleVip outside (String.ofList rest) req
        else .done none) [] ↔ ¬ RunsOn path := by
  by_cases ascii : c.utf8Size = 1
  · rw [if_pos ascii]
    by_cases refused : '/' ∈ rest ∨ rest = []
    · rw [if_pos refused]
      refine iff_of_true (keeps_noSuchPath path) ?_
      rintro ⟨d, tail, same, noSlash, runs⟩
      obtain ⟨rfl, rfl⟩ := List.cons.inj (List.append_cancel_left (whole.symm.trans same))
      rcases refused with slash | empty
      · exact (runs ascii).2 slash
      · exact (runs ascii).1 empty
    · rw [if_neg refused]
      obtain ⟨noSlash, nonempty⟩ := not_or.mp refused
      by_cases slash : c = '/'
      · subst slash
        have named : PathOf path (String.ofList rest) := by
          refine ⟨?_, ?_, ?_⟩
          · rw [String.toList_ofList]
            exact whole
          · intro empty
            refine nonempty ?_
            rw [← String.toList_ofList (l := rest), empty]
            rfl
          · rw [String.toList_ofList]
            exact noSlash
        exact iff_of_true (keeps_handleVip named _)
          fun runsOn => runsOn.not_known (.inr (.inr (.inr ⟨_, named⟩)))
      · have runsOn : RunsOn path := ⟨c, rest, whole, slash, fun _ => ⟨nonempty, noSlash⟩⟩
        have other : ¬ PathOf path (String.ofList rest) :=
          fun named => runsOn.not_known (.inr (.inr (.inr ⟨_, named⟩)))
        exact iff_of_false (not_keeps_handleVip other runsOn.not_known) (not_not.mpr runsOn)
  · -- The slice would start inside a character.
    rw [if_neg ascii]
    have noSlash : c ≠ '/' := by
      rintro rfl
      exact ascii (by decide)
    have runsOn : RunsOn path := ⟨c, rest, whole, noSlash, fun one => absurd one ascii⟩
    refine iff_of_false ?_ (not_not.mpr runsOn)
    rintro ⟨_, _, panics, _⟩
    cases panics

/-- With a valid token, where one is configured. -/
def Authorized (outside : Outside) (tokenFile : Option String) (req : Request) : Prop :=
  authorized outside tokenFile req.authorization = .ok ()

theorem exact_of_health (health : req.pathOnly = "/healthz".toList) :
    Exact outside tokenFile req := by
  have known : Known req.pathOnly := .inl health
  unfold Exact handle
  rw [if_pos health]
  split
  · exact keeps_reply known _ _ _
  · exact keeps_reply known _ _ _

theorem exact_of_stripped_none (health : req.pathOnly ≠ "/healthz".toList)
    (stripped : stripPrefix vipsPath req.pathOnly = none) : Exact outside tokenFile req := by
  unfold Exact handle
  rw [if_neg health, stripped]
  exact keeps_noSuchPath _

/-- The two paths of the list. -/
theorem exact_of_list {rest : List Char} (valid : Authorized outside tokenFile req)
    (health : req.pathOnly ≠ "/healthz".toList)
    (stripped : stripPrefix vipsPath req.pathOnly = some rest) (bare : rest = [] ∨ rest = ['/']) :
    Exact outside tokenFile req := by
  have path := stripPrefix_eq_some_iff.mp stripped
  have known : Known req.pathOnly := by
    rcases bare with rfl | rfl
    · exact .inr (.inl (path.trans (List.append_nil _)))
    · exact .inr (.inr (.inl path))
  unfold Exact handle
  rw [if_neg health, stripped]
  simp only [show authorized outside tokenFile req.authorization = .ok () from valid, if_pos bare]
  split
  · exact ⟨fun _ names => names.elim, fun vips => keeps_reply known _ _ _⟩
  · exact keeps_reply known _ _ _

/-- Past the list, what follows the first byte is the name. -/
theorem handle_of_longer {c : Char} {rest : List Char} (valid : Authorized outside tokenFile req)
    (health : req.pathOnly ≠ "/healthz".toList)
    (stripped : stripPrefix vipsPath req.pathOnly = some (c :: rest)) (longer : c :: rest ≠ ['/']) :
    handle outside tokenFile req =
      if c.utf8Size = 1 then
        if '/' ∈ rest ∨ rest = [] then noSuchPath req.pathOnly
        else handleVip outside (String.ofList rest) req
      else .done none := by
  have notBare : ¬ (c :: rest = [] ∨ c :: rest = ['/']) := by
    rintro (empty | slash)
    · cases empty
    · exact longer slash
  unfold handle
  rw [if_neg health, stripped]
  simp only [show authorized outside tokenFile req.authorization = .ok () from valid,
    if_neg notBare, sliceFrom_one]
  by_cases ascii : c.utf8Size = 1
  · simp only [if_pos ascii]
  · simp only [if_neg ascii]

/--
A request with a valid token is addressed exactly, and answered, unless its path
runs on after `/api/v1/vips`.
-/
theorem exact_iff (valid : Authorized outside tokenFile req) :
    Exact outside tokenFile req ↔ ¬ RunsOn req.pathOnly := by
  by_cases health : req.pathOnly = "/healthz".toList
  · exact iff_of_true (exact_of_health health) fun runsOn => runsOn.not_known (.inl health)
  cases stripped : stripPrefix vipsPath req.pathOnly with
  | none =>
      refine iff_of_true (exact_of_stripped_none health stripped) ?_
      rintro ⟨c, rest, path, _⟩
      rw [stripPrefix_eq_some_iff.mpr path] at stripped
      cases stripped
  | some rest =>
      have path := stripPrefix_eq_some_iff.mp stripped
      by_cases bare : rest = [] ∨ rest = ['/']
      · refine iff_of_true (exact_of_list valid health stripped bare) fun runsOn => ?_
        refine runsOn.not_known ?_
        rcases bare with rfl | rfl
        · exact .inr (.inl (path.trans (List.append_nil _)))
        · exact .inr (.inr (.inl path))
      · obtain ⟨c, name, rfl⟩ := List.exists_cons_of_ne_nil fun empty => bare (.inl empty)
        rw [Exact, handle_of_longer valid health stripped fun slash => bare (.inr slash)]
        exact keeps_longer_iff path fun slash => bare (.inr slash)

end

/-- Files are empty, and no body is a spec. -/
def nothingOutside : Outside where
  readToString := fun _ => .ok ""
  fromSlice := fun _ => .error "EOF while parsing a value"
  debug := id

def joined : Request where
  method := "GET"
  path := "/api/v1/vipsxk8s"
  authorization := none
  body := []

def accented : Request :=
  { joined with path := "/api/v1/vipsé" }

/-- A name that runs together with the prefix is answered as a VIP, and a longer character panics. -/
theorem joined_not_exact :
    Authorized nothingOutside none joined ∧ ¬ Exact nothingOutside none joined ∧
      handle nothingOutside none accented = .done none := by
  have valid : Authorized nothingOutside none joined := rfl
  have runsOn : RunsOn joined.pathOnly := ⟨'x', "k8s".toList, by decide, by decide, by decide⟩
  refine ⟨valid, ?_, ?_⟩
  · have stripped : stripPrefix vipsPath joined.pathOnly = some ('x' :: "k8s".toList) := by decide
    have path := stripPrefix_eq_some_iff.mp stripped
    rw [Exact, handle_of_longer valid (by decide) stripped (by decide),
      keeps_longer_iff path (by decide)]
    exact not_not.mpr runsOn
  · have alone : Authorized nothingOutside none accented := rfl
    have stripped : stripPrefix vipsPath accented.pathOnly = some ['é'] := by decide
    rw [handle_of_longer alone (by decide) stripped (by decide), if_neg (by decide)]

/-- A token file that ends with a newline, as editors leave it. -/
def secretOutside : Outside :=
  { nothingOutside with readToString := fun _ => .ok "secret\n" }

def askK8s : Request where
  method := "GET"
  path := "/api/v1/vips/k8s?watch=1"
  authorization := some "Bearer secret"
  body := []

-- The query is no part of the path, and with the token in it the request is answered.
theorem exact_iff_askK8s : Exact secretOutside (some "/etc/stormlb/token") askK8s := by
  have valid : Authorized secretOutside (some "/etc/stormlb/token") askK8s := by
    unfold Authorized
    decide
  refine (exact_iff valid).mpr ?_
  rintro ⟨c, rest, path, noSlash, _⟩
  have whole : vipsPath ++ '/' :: "k8s".toList = vipsPath ++ c :: rest := path
  exact noSlash (List.cons.inj (List.append_cancel_left whole)).1.symm

/-! ## On the registry -/

/-- What the node answers while the registry is asked. -/
structure Node where
  serde : Serde
  env : Environment
  writeAtomic : String → String → Except String Unit
  shown : Handle → Vrrp.State

/-- The registry answers an operation. -/
def Node.answer (node : Node) (r : Registry) : (op : Op) → op.Ans × Registry
  | .list => (r.list node.shown, r)
  | .get name => (r.get node.shown name, r)
  | .apply name spec => r.apply node.serde node.env node.writeAtomic name spec
  | .remove name => r.remove node.serde node.writeAtomic name

/-- An operation leaves every entry as it is but the one it names. -/
theorem Node.answer_frame (node : Node) (r : Registry) {op : Op} {name : String}
    (apart : ¬ op.Names name) : (node.answer r op).2.vips[name]? = r.vips[name]? := by
  cases op with
  | list => rfl
  | get named => rfl
  | apply named spec =>
      exact r.run_frame (.apply node.serde node.env node.writeAtomic named spec)
        fun same => apart same.symm
  | remove named =>
      exact r.run_frame (.remove node.serde node.writeAtomic named) fun same => apart same.symm

/-- An exact request changes no VIP but the one its path names. -/
theorem Exact.spares {outside : Outside} {tokenFile : Option String} {req : Request}
    (exact : Exact outside tokenFile req) (node : Node) (r : Registry) {name : String}
    (apart : ¬ PathOf req.pathOnly name) :
    ((handle outside tokenFile req).serve node.answer r).2.vips[name]? = r.vips[name]? := by
  have lawful : ∀ (after : Registry) (op : Op) (past : Log), op.Addressed req.pathOnly past →
      after.vips[name]? = r.vips[name]? → (node.answer after op).2.vips[name]? = r.vips[name]? := by
    intro after op past addressed same
    rw [node.answer_frame after fun names => apart (addressed name names), same]
  exact Program.Keeps.serve lawful exact rfl

/-- An exact request on a path the API does not have changes nothing at all. -/
theorem Exact.unchanged {outside : Outside} {tokenFile : Option String} {req : Request}
    (exact : Exact outside tokenFile req) (node : Node) (r : Registry)
    (unknown : ¬ Known req.pathOnly) :
    ((handle outside tokenFile req).serve node.answer r).2 = r := by
  refine Program.Keeps.serve_unasked (Program.Keeps.weaken ?_ exact)
  rintro reply log ⟨_, _, _, answered⟩
  exact (answered unknown).2

end StormLb.Api
