import StormLb.Router.Table

/-!
# Polling the route table

A turn of the poll replaces the table when the list could be read, and keeps it
otherwise.  A Service lookup that fails on its own leaves its route out of the
new table, and its hostnames with it.
-/

namespace StormLb.Router

open StormLb.Effects

/-- One turn of `poll_routes`: what it makes of the table. -/
def pollRoutes (api : String) (client : Except String Unit)
    (token : Except String (Option String)) (last : Table) : Fetch Table := do
  match client, token with
  | .ok (), .ok token =>
      match ← fetchTable api token with
      | .ok new => return new
      | .error _ => return last
  | _, _ => return last

/-! ## The apiserver during one poll -/

/-- A request that fails. -/
inductive Failure where
  /-- A transport error or a timeout. -/
  | unreachable (error : String)
  | status (code : Nat) (body : Except String Json)
      (bad : code = 401 ∨ code = 403 ∨ 500 ≤ code ∧ code < 600)
  /-- The body did not arrive. -/
  | cut (code : Nat) (error : String)

def Failure.answer : Failure → Except String Response
  | .unreachable error => .error error
  | .status code body _ => .ok ⟨code, body⟩
  | .cut code error => .ok ⟨code, .error error⟩

/-- What the apiserver has under each URL, and which requests of a poll fail, in their order. -/
structure Apiserver where
  content : String → Response
  outcome : Nat → Option Failure

/-- The next request is answered, or fails. -/
def Apiserver.answer (server : Apiserver) (asked : Nat) (get : Get) : get.Ans × Nat :=
  (match server.outcome asked with
    | some failure => failure.answer
    | none => .ok (server.content get.url), asked + 1)

/-- The same apiserver when no request fails. -/
def Apiserver.reliable (server : Apiserver) : Apiserver :=
  { server with outcome := fun _ => none }

/-- The table after one poll. -/
def Apiserver.polled (server : Apiserver) (api : String) (client : Except String Unit)
    (token : Except String (Option String)) (last : Table) : Table :=
  ((pollRoutes api client token last).serve server.answer 0).1

/-! ## What the requests bring -/

/-- What a GET brings when it does not fail. -/
def Apiserver.read (server : Apiserver) (url : String) (token : Option String) :
    Except ApiError Json :=
  (server.content url).json { url, token }

section

variable (server : Apiserver) (api : String) (token : Option String)

theorem Failure.json_eq_error (get : Get) (failure : Failure) {response : Response}
    (answer : failure.answer = .ok response) : ∃ error, response.json get = .error error := by
  cases failure with
  | unreachable error => cases answer
  | status code body bad =>
      cases answer
      unfold Response.json
      split
      · exact ⟨_, rfl⟩
      · rename_i notDenied
        rw [if_pos]
        · exact ⟨_, rfl⟩
        · dsimp only at notDenied ⊢
          omega
  | cut code error =>
      cases answer
      unfold Response.json
      split
      · exact ⟨_, rfl⟩
      · split
        · exact ⟨_, rfl⟩
        · exact ⟨_, rfl⟩

/-- A request that fails brings an error, and the next one its content. -/
theorem serve_apiGet (url : String) (asked : Nat) :
    ∃ result, (apiGet url token).serve server.answer asked = (result, asked + 1) ∧
      if (server.outcome asked).isSome then ∃ error, result = .error error
      else result = server.read url token := by
  unfold apiGet
  simp only [Program.perform, Program.bind_eq, Program.call_bind, Program.done_bind,
    Program.serve_call]
  cases fails : server.outcome asked with
  | none =>
      simp only [Apiserver.answer, fails]
      exact ⟨_, rfl, by simp [Apiserver.read]⟩
  | some failure =>
      simp only [Apiserver.answer, fails]
      cases answer : failure.answer with
      | error error => exact ⟨_, rfl, by simp⟩
      | ok response =>
          obtain ⟨error, said⟩ := failure.json_eq_error { url, token } answer
          exact ⟨_, rfl, by simp [said]⟩

/-! ## What a route brings -/

/-- The route's address is that of a Service, which has to be looked up. -/
def looksUp (route : Json) : Bool :=
  (annotated route backendKey).isNone && ((backendRef route).get "name").asStr.isSome

def namespaceOf (route : Json) : String :=
  ((route.get "metadata").get "namespace").asStr.getD "default"

/-- The backend the apiserver has for a route. -/
def Apiserver.backend (route : Json) : Option Backend :=
  match ((backendOf api token (namespaceOf route) route).serve server.reliable.answer 0).1 with
  | .ok addr => (withProtocol route addr).toOption
  | .error _ => none

/-- The table with the route's backend. -/
def Apiserver.add (table : Table) (route : Json) : Table :=
  match server.backend api token route with
  | some backend => insertAll table (hostnames route) backend
  | none => table

theorem serve_backendOf (ns : String) (route : Json) (asked : Nat) :
    ∃ result, (backendOf api token ns route).serve server.answer asked =
        (result, if looksUp route then asked + 1 else asked) ∧
      if looksUp route ∧ (server.outcome asked).isSome then ∃ error, result = .error error
      else result = ((backendOf api token ns route).serve server.reliable.answer 0).1 := by
  unfold backendOf looksUp
  cases annotated route backendKey with
  | some addr => exact ⟨_, rfl, rfl⟩
  | none =>
      dsimp only
      cases ((backendRef route).get "name").asStr with
      | none => exact ⟨_, rfl, rfl⟩
      | some svc =>
          dsimp only
          generalize ((backendRef route).get "namespace").asStr.getD ns = sns
          generalize s!"{api}/api/v1/namespaces/{sns}/services/{svc}" = url
          rw [Program.bind_eq, Program.serve_bind, Program.serve_bind]
          obtain ⟨result, served, brings⟩ := serve_apiGet server token url asked
          obtain ⟨result', served', brings'⟩ := serve_apiGet server.reliable token url 0
          have answered : result' = server.read url token := brings'
          rw [served, served', answered]
          by_cases fails : (server.outcome asked).isSome = true
          · rw [if_pos fails] at brings
            obtain ⟨error, rfl⟩ := brings
            exact ⟨_, rfl, by simp [fails]⟩
          · rw [if_neg fails] at brings
            rw [brings]
            cases server.read url token with
            | error error => exact ⟨_, rfl, by simp [fails]⟩
            | ok json => exact ⟨_, rfl, by simp [fails]⟩

/-- One route adds its backend, unless the lookup of its Service fails. -/
theorem serve_addRoute (table : Table) (route : Json) (asked : Nat) :
    (addRoute api token table route).serve server.answer asked =
      (if looksUp route ∧ (server.outcome asked).isSome then table
        else server.add api token table route,
      if looksUp route then asked + 1 else asked) := by
  unfold addRoute
  rw [Program.bind_eq, Program.serve_bind]
  obtain ⟨result, served, brings⟩ := serve_backendOf server api token (namespaceOf route) route asked
  rw [namespaceOf] at served
  rw [served]
  by_cases fails : looksUp route ∧ (server.outcome asked).isSome
  · rw [if_pos fails] at brings
    obtain ⟨error, rfl⟩ := brings
    rw [if_pos fails]
    rfl
  · rw [if_neg fails] at brings
    rw [if_neg fails, Apiserver.add, Apiserver.backend, ← brings]
    cases result with
    | error error => rfl
    | ok addr =>
        dsimp only
        cases withProtocol route addr with
        | error error => rfl
        | ok backend => rfl

/-! ## What a poll makes of the table -/

/-- The routes without those whose lookup fails, when so many requests came before. -/
def Apiserver.kept (server : Apiserver) : Nat → List Json → List Json
  | _, [] => []
  | asked, route :: rest =>
      if looksUp route then
        if (server.outcome asked).isSome then server.kept (asked + 1) rest
        else route :: server.kept (asked + 1) rest
      else route :: server.kept asked rest

/-- The routes that the apiserver lists. -/
def Apiserver.listed : List Json :=
  match server.read (routesUrl api) token with
  | .ok list => (list.get "items").elements
  | .error _ => []

/-- The backend of the last route that names the host and has one. -/
def Apiserver.lastBackend (host : String) : List Json → Option Backend
  | [] => none
  | route :: rest =>
      (lastBackend host rest).or
        (if host ∈ hostnames route then server.backend api token route else none)

theorem serve_addRoutes (routes : List Json) (table : Table) (asked : Nat) :
    ((addRoutes api token table routes).serve server.answer asked).1 =
      (server.kept asked routes).foldl (server.add api token) table := by
  induction routes generalizing table asked with
  | nil => rfl
  | cons route rest ih =>
      rw [addRoutes, Program.bind_eq, Program.serve_bind, serve_addRoute, ih, Apiserver.kept]
      cases looksUp route with
      | false => simp
      | true =>
          cases fails : (server.outcome asked).isSome with
          | false => simp
          | true => simp

theorem add_getElem? (table : Table) (route : Json) (host : String) :
    (server.add api token table route)[host]? =
      (if host ∈ hostnames route then server.backend api token route else none).or table[host]? := by
  unfold Apiserver.add
  cases server.backend api token route with
  | none => simp
  | some backend =>
      dsimp only
      rw [insertAll_getElem?]
      split
      · rfl
      · rfl

theorem foldl_add_getElem? (routes : List Json) (table : Table) (host : String) :
    (routes.foldl (server.add api token) table)[host]? =
      (server.lastBackend api token host routes).or table[host]? := by
  induction routes generalizing table with
  | nil => rfl
  | cons route rest ih =>
      rw [List.foldl_cons, ih, add_getElem?, Apiserver.lastBackend, Option.or_assoc]

/-- A list that cannot be read brings no table; a list that can brings what its kept routes say. -/
theorem serve_fetchTable :
    if (server.outcome 0).isSome then
      ∃ error, ((fetchTable api token).serve server.answer 0).1 = .error error
    else (∃ error, ((fetchTable api token).serve server.answer 0).1 = .error error ∧
        server.listed api token = []) ∨
      ((fetchTable api token).serve server.answer 0).1 =
        .ok ((server.kept 1 (server.listed api token)).foldl (server.add api token) ∅) := by
  unfold fetchTable
  obtain ⟨result, served, brings⟩ := serve_apiGet server token (routesUrl api) 0
  rw [Program.bind_eq, Program.serve_bind, served]
  split
  · rename_i fails
    rw [if_pos fails] at brings
    obtain ⟨error, rfl⟩ := brings
    exact ⟨error, rfl⟩
  · rename_i answered
    rw [if_neg answered] at brings
    cases read : server.read (routesUrl api) token with
    | error error =>
        rw [brings, read]
        exact .inl ⟨error, rfl, by rw [Apiserver.listed, read]⟩
    | ok list =>
        refine .inr ?_
        rw [brings, read, Apiserver.listed, read]
        dsimp only
        rw [Program.bind_eq, Program.serve_bind, serve_addRoutes]
        rfl

theorem kept_reliable (asked : Nat) (routes : List Json) :
    server.reliable.kept asked routes = routes := by
  induction routes generalizing asked with
  | nil => rfl
  | cons route rest ih =>
      rw [Apiserver.kept, ih, ih]
      simp [Apiserver.reliable]

end

/-! ## Working routes -/

/-- The apiserver has this backend for the host: a poll without failures would map it there. -/
def Apiserver.Has (server : Apiserver) (api : String) (token : Option String) (host : String)
    (backend : Backend) : Prop :=
  ∃ table, ((fetchTable api token).serve server.reliable.answer 0).1 = .ok table ∧
    table[host]? = some backend

/-- Every hostname that is mapped as the apiserver has it stays mapped so. -/
def Apiserver.KeepsWorking (server : Apiserver) (api : String) (token : Option String)
    (last : Table) : Prop :=
  ∀ host backend, last[host]? = some backend → server.Has api token host backend →
    (server.polled api (.ok ()) (.ok token) last)[host]? = some backend

/--
The list could not be read, or of the routes whose lookup did not fail the last
one that names such a hostname and has a backend has the same.
-/
def Apiserver.Spares (server : Apiserver) (api : String) (token : Option String)
    (last : Table) : Prop :=
  (server.outcome 0).isSome ∨ ∀ host backend, last[host]? = some backend →
    server.lastBackend api token host (server.listed api token) = some backend →
      server.lastBackend api token host (server.kept 1 (server.listed api token)) = some backend

section

variable {server : Apiserver} {api : String} {token : Option String} {last : Table}

theorem empty_foldl_add_getElem? (routes : List Json) (host : String) :
    (routes.foldl (server.add api token) ∅)[host]? = server.lastBackend api token host routes := by
  rw [foldl_add_getElem?, Std.ExtTreeMap.getElem?_empty, Option.or_none]

theorem has_iff {host : String} {backend : Backend} :
    server.Has api token host backend ↔
      server.lastBackend api token host (server.listed api token) = some backend := by
  have fetched := serve_fetchTable server.reliable api token
  rw [if_neg (by simp [Apiserver.reliable]), kept_reliable] at fetched
  change (∃ error, ((fetchTable api token).serve server.reliable.answer 0).1 = .error error ∧
      server.listed api token = []) ∨
    ((fetchTable api token).serve server.reliable.answer 0).1 =
      .ok ((server.listed api token).foldl (server.add api token) ∅) at fetched
  unfold Apiserver.Has
  rcases fetched with ⟨error, failed, nothing⟩ | made
  · rw [nothing, failed]
    refine iff_of_false ?_ (fun impossible => nomatch impossible)
    rintro ⟨_, impossible, _⟩
    cases impossible
  · rw [made, ← empty_foldl_add_getElem?]
    constructor
    · rintro ⟨_, ⟨⟩, present⟩
      exact present
    · exact fun present => ⟨_, rfl, present⟩

/-- A poll without a client or a token asks nothing, and leaves the last table. -/
theorem polled_unasked {client : Except String Unit} {token : Except String (Option String)}
    (unable : client.isOk = false ∨ token.isOk = false) :
    server.polled api client token last = last := by
  unfold Apiserver.polled pollRoutes
  cases client with
  | error error => rfl
  | ok _ =>
      cases token with
      | error error => rfl
      | ok token => cases unable with
        | inl impossible => cases impossible
        | inr impossible => cases impossible

/-- A poll whose table could not be fetched leaves the last one. -/
theorem polled_of_error {error : ApiError}
    (failed : ((fetchTable api token).serve server.answer 0).1 = .error error) :
    server.polled api (.ok ()) (.ok token) last = last := by
  unfold Apiserver.polled pollRoutes
  dsimp only
  rw [Program.bind_eq, Program.serve_bind, failed]
  rfl

theorem polled_of_ok {table : Table}
    (fetched : ((fetchTable api token).serve server.answer 0).1 = .ok table) :
    server.polled api (.ok ()) (.ok token) last = table := by
  unfold Apiserver.polled pollRoutes
  dsimp only
  rw [Program.bind_eq, Program.serve_bind, fetched]
  rfl

/--
A poll takes no working route down exactly when its list fails, or no failed
lookup leaves a hostname without its backend.
-/
theorem keepsWorking_iff : server.KeepsWorking api token last ↔ server.Spares api token last := by
  have fetched := serve_fetchTable server api token
  unfold Apiserver.KeepsWorking Apiserver.Spares
  by_cases fails : (server.outcome 0).isSome = true
  · rw [if_pos fails] at fetched
    obtain ⟨error, failed⟩ := fetched
    refine iff_of_true ?_ (.inl fails)
    intro host backend present _
    rw [polled_of_error failed]
    exact present
  · rw [if_neg fails] at fetched
    rw [or_iff_right fails]
    refine forall_congr' fun host => forall_congr' fun backend => forall_congr' fun present => ?_
    rw [has_iff]
    rcases fetched with ⟨error, failed, nothing⟩ | made
    · rw [polled_of_error failed, nothing]
      exact iff_of_true (fun _ => present) fun impossible => nomatch impossible
    · rw [polled_of_ok made, empty_foldl_add_getElem?]

end

/-! ## A lookup that fails on its own -/

/-- The route of one host to a Service. -/
def consoleRoute : Json :=
  .object [
    ("metadata", .object [("name", .string "console"), ("namespace", .string "kube-system")]),
    ("spec", .object [
      ("hostnames", .array [.string "console.test"]),
      ("rules", .array [.object [("backendRefs", .array [.object [
        ("name", .string "console"), ("port", .number (.unsigned 8080))]])]])])]

/-- An apiserver that lists the route, and knows its Service. -/
def steady : Apiserver where
  content url :=
    if url = "https://127.0.0.1:6443/apis/gateway.networking.k8s.io/v1/httproutes" then
      ⟨200, .ok (.object [("items", .array [consoleRoute])])⟩
    else if url = "https://127.0.0.1:6443/api/v1/namespaces/kube-system/services/console" then
      ⟨200, .ok (.object [("spec", .object [("clusterIP", .string "10.43.0.7")])])⟩
    else ⟨404, .error "expected value at line 1 column 1"⟩
  outcome := fun _ => none

/-- The list is answered, and the lookup of the Service is not. -/
def flapping : Apiserver :=
  { steady with
    outcome := fun asked => if asked = 1 then some (.unreachable "operation timed out") else none }

def apiserver : String :=
  "https://127.0.0.1:6443"

def console : Backend where
  addr := "10.43.0.7:8080"
  tls := none

def consoleTable : Table :=
  .ofList [("console.test", console)]

/-- One of the requests of a poll fails, and takes a working route down. -/
theorem failed_lookup_takes_route_down :
    ¬ ∀ (server : Apiserver) (api : String) (token : Option String) (last : Table),
      (∃ asked < ((fetchTable api token).serve server.answer 0).2,
        (server.outcome asked).isSome = true) → server.KeepsWorking api token last := by
  intro keeps
  have has : flapping.Has apiserver none "console.test" console :=
    has_iff.mpr (by decide +kernel)
  have stays := keeps flapping apiserver none consoleTable ⟨1, by decide +kernel, rfl⟩
    "console.test" console (by decide +kernel) has
  have gone : (flapping.polled apiserver (.ok ()) (.ok none) consoleTable)["console.test"]? = none := by
    decide +kernel
  cases gone.symm.trans stays

end StormLb.Router
