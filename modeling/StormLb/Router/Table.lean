import StormLb.Router.Route

/-!
# Where table entries come from

Every entry of a fetched table was put there by a listed route, with the backend
that the route's annotations make of some address.
-/

namespace StormLb.Router

open StormLb.Effects

/-- A route puts a backend under a hostname, once its address was found. -/
def Contributes (route : Json) (addr host : String) (backend : Backend) : Prop :=
  withProtocol route addr = .ok backend ∧ host ∈ hostnames route

/-- The apiserver listed the route. -/
def Listed (api : String) (token : Option String) (log : Fetched) (route : Json) : Prop :=
  ∃ response list, ⟨{ url := routesUrl api, token }, .ok response⟩ ∈ log ∧
    response.json { url := routesUrl api, token } = .ok list ∧
      route ∈ (list.get "items").elements

/-- Every entry of the table came from one of the routes. -/
def ComesFrom (table : Table) (routes : List Json) : Prop :=
  ∀ host backend, table[host]? = some backend →
    ∃ route ∈ routes, ∃ addr, Contributes route addr host backend

theorem insertAll_getElem? (table : Table) (hosts : List String) (backend : Backend)
    (host : String) :
    (insertAll table hosts backend)[host]? =
      if host ∈ hosts then some backend else table[host]? := by
  induction hosts generalizing table with
  | nil => rfl
  | cons first rest ih =>
      rw [insertAll, List.foldl_cons, ← insertAll, ih, Std.ExtTreeMap.getElem?_insert]
      by_cases same : first = host
      · simp [same]
      · simp [same, Ne.symm same, List.mem_cons]

variable (api : String) (token : Option String)

/-- What one route adds comes from it. -/
theorem addRoute_yields {table : Table} {routes : List Json} (route : Json) (log : Fetched)
    (comesFrom : ComesFrom table routes) :
    Program.Yields (fun after _ => ComesFrom after (routes ++ [route]))
      (addRoute api token table route) log := by
  have older : ComesFrom table (routes ++ [route]) := fun host backend present => by
    obtain ⟨earlier, member, contributed⟩ := comesFrom host backend present
    exact ⟨earlier, List.mem_append_left _ member, contributed⟩
  refine Program.Keeps.bind (Program.yields_of_forall (fun _ _ => trivial) _ _) fun found log _ => ?_
  cases found with
  | error error => exact older
  | ok addr =>
      dsimp only
      split
      · exact older
      · rename_i backend protocol
        intro host present contributed
        rw [insertAll_getElem?] at contributed
        split at contributed
        · rename_i named
          cases contributed
          exact ⟨route, List.mem_append_right _ (List.mem_singleton_self _), addr, protocol, named⟩
        · exact older host present contributed

theorem addRoutes_yields {table : Table} {routes : List Json} (rest : List Json) (log : Fetched)
    (comesFrom : ComesFrom table routes) :
    Program.Yields (fun after _ => ComesFrom after (routes ++ rest))
      (addRoutes api token table rest) log := by
  induction rest generalizing table routes log with
  | nil =>
      rw [List.append_nil]
      exact comesFrom
  | cons route rest ih =>
      refine Program.Keeps.bind (addRoute_yields api token route log comesFrom) ?_
      intro after log added
      rw [List.append_cons]
      exact ih log added

/-- Every entry of a fetched table was contributed by a listed route. -/
theorem fetchTable_yields :
    Program.Yields
      (fun fetched log => ∀ table host backend, fetched = .ok table → table[host]? = some backend →
        ∃ route addr, Listed api token log route ∧ Contributes route addr host backend)
      (fetchTable api token) [] := by
  refine ⟨trivial, fun answer => ?_⟩
  cases answer with
  | error error => exact fun table _ _ same => nomatch same
  | ok response =>
      simp only [Program.pure_eq, Program.done_bind, Program.bind_eq]
      cases read : response.json { url := routesUrl api, token } with
      | error error => exact fun table _ _ same => nomatch same
      | ok list =>
          have empty : ComesFrom ∅ [] := fun host backend present => by simp at present
          refine Program.Keeps.bind (addRoutes_yields api token _ _ empty).grows ?_
          rintro table log ⟨comesFrom, suffix⟩ table host backend ⟨⟩ present
          obtain ⟨route, member, addr, contributed⟩ := comesFrom host backend present
          exact ⟨route, addr, ⟨response, list, suffix.mem (List.mem_cons_self ..), read, member⟩,
            contributed⟩

end StormLb.Router
