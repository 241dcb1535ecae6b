import StormLb.Api.Addressing
import StormLb.Vips.Store

/-!
# The API as a store of specs

A request asks one thing of the store or nothing, by its method, path, token and
body.  What is asked is answered as the store is then, and a request that asks
nothing is told why; what the node's tasks do between the requests is not seen.
-/

namespace StormLb.Api

open StormLb.Text StormLb.Effects StormLb.Vips

/-! ## What a request asks -/

/-- The path leads to the name: one byte, whatever it is, stands between the prefix and the name. -/
structure Leads (path : List Char) (name : String) : Prop where
  path : ∃ c : Char, c.utf8Size = 1 ∧ path = vipsPath ++ c :: name.toList
  nonempty : name ≠ ""
  noSlash : '/' ∉ name.toList

theorem PathOf.leads {path : List Char} {name : String} (named : PathOf path name) :
    Leads path name where
  path := ⟨'/', by decide, named.path⟩
  nonempty := named.nonempty
  noSlash := named.noSlash

/-- The two paths of the list. -/
def Lists (path : List Char) : Prop :=
  path = vipsPath ∨ path = vipsPath ++ ['/']

/-- The body of an error. -/
def errorBody (message : String) : Json :=
  .object [("error", .string message)]

section

variable (outside : Outside) (tokenFile : Option String) (req : Request)

/-- What a request asks of the store. -/
inductive Asks : Op → Prop where
  | list (valid : Authorized outside tokenFile req) (path : Lists req.pathOnly)
      (method : req.method = "GET") : Asks .list
  | get {name : String} (valid : Authorized outside tokenFile req) (leads : Leads req.pathOnly name)
      (method : req.method = "GET") : Asks (.get name)
  | apply {name : String} {spec : VipSpec} (valid : Authorized outside tokenFile req)
      (leads : Leads req.pathOnly name) (method : req.method = "PUT")
      (parsed : outside.fromSlice req.body = .ok spec) : Asks (.apply name spec)
  | remove {name : String} (valid : Authorized outside tokenFile req)
      (leads : Leads req.pathOnly name) (method : req.method = "DELETE") : Asks (.remove name)

/-- What a request that asks nothing is replied. -/
inductive Unasked : Reply → Prop where
  | healthy (path : req.pathOnly = "/healthz".toList) (method : req.method = "GET") :
      Unasked (some (200, .object [("status", .string "ok")]))
  | healthMethod (path : req.pathOnly = "/healthz".toList) (other : req.method ≠ "GET") :
      Unasked (some (405, errorBody "method not allowed"))
  | elsewhere (path : req.pathOnly ≠ "/healthz".toList) (other : ¬ vipsPath <+: req.pathOnly) :
      Unasked (some (404, errorBody s!"no such path {String.ofList req.pathOnly}"))
  | unauthorized {status : UInt16} {message : String} (path : vipsPath <+: req.pathOnly)
      (invalid : authorized outside tokenFile req.authorization = .error (status, message)) :
      Unasked (some (status, errorBody message))
  | listMethod (valid : Authorized outside tokenFile req) (path : Lists req.pathOnly)
      (other : req.method ≠ "GET") : Unasked (some (405, errorBody "method not allowed"))
  -- The slice would start inside a character.
  | panics {c : Char} {rest : List Char} (valid : Authorized outside tokenFile req)
      (path : req.pathOnly = vipsPath ++ c :: rest) (wide : c.utf8Size ≠ 1) : Unasked none
  | nameless {c : Char} {rest : List Char} (valid : Authorized outside tokenFile req)
      (path : req.pathOnly = vipsPath ++ c :: rest) (ascii : c.utf8Size = 1)
      (longer : ¬ Lists req.pathOnly) (unnamed : '/' ∈ rest ∨ rest = []) :
      Unasked (some (404, errorBody s!"no such path {String.ofList req.pathOnly}"))
  | unread {name message : String} (valid : Authorized outside tokenFile req)
      (leads : Leads req.pathOnly name) (method : req.method = "PUT")
      (unreadable : outside.fromSlice req.body = .error message) :
      Unasked (some (400, errorBody s!"body: {message}"))
  | method {name : String} (valid : Authorized outside tokenFile req)
      (leads : Leads req.pathOnly name) (other : req.method ∉ ["GET", "PUT", "DELETE"]) :
      Unasked (some (405, errorBody "method not allowed"))

end

/-! ## What the store answers -/

/-- The view shows the VIP that is stored under its name. -/
structure Shows (store : Store) (v : VipView) (stored : Stored) : Prop where
  here : store.served v.name = some stored
  spec : v.spec = stored.spec
  listening : v.status.listening = stored.listen.display
  source : v.status.source = if stored.fromConfig then "config" else "api"
  healthy : v.status.healthy = (v.status.backends.filter BackendStatus.healthy).length

/-- What the store answers, and the store then. -/
inductive Answers (outside : Outside) (node : Node) (before : Store) :
    Op → UInt16 → Json → Store → Prop where
  | list {views : List VipView} (sorted : views.Pairwise fun v w => compare v.name w.name = .lt)
      (each : ∀ v ∈ views, ∃ stored, Shows before v stored)
      (all : ∀ name, before.served name ≠ none → ∃ v ∈ views, v.name = name) :
      Answers outside node before .list 200 (.object [("vips", .array (views.map VipView.toJson))])
        before
  | shown {v : VipView} {stored : Stored} (shows : Shows before v stored) :
      Answers outside node before (.get v.name) 200 v.toJson before
  | unknown {name : String} (absent : before.served name = none) :
      Answers outside node before (.get name) 404 (errorBody s!"no VIP {name}") before
  | applied {v : VipView} {stored : Stored} {created : Bool} {after : Store}
      (applies : before.Applies node.serde node.env node.writeAtomic v.name v.spec (.ok created) after)
      (shows : Shows after v stored) :
      Answers outside node before (.apply v.name v.spec) (if created then 201 else 200) v.toJson after
  | notApplied {name : String} {spec : VipSpec} {error : ApplyError} {after : Store}
      (applies : before.Applies node.serde node.env node.writeAtomic name spec (.error error) after) :
      Answers outside node before (.apply name spec) (errorStatus error)
        (errorBody (error.display outside.debug)) after
  | removed {name : String} {after : Store}
      (removes : before.Removes node.serde node.writeAtomic name (.ok ()) after) :
      Answers outside node before (.remove name) 200 (.object [("deleted", .string name)]) after
  | notRemoved {name : String} {error : ApplyError} {after : Store}
      (removes : before.Removes node.serde node.writeAtomic name (.error error) after) :
      Answers outside node before (.remove name) (errorStatus error)
        (errorBody (error.display outside.debug)) after

/-! ## Exchanges -/

/-- A request with the node that received it, the operation it came to, and the reply. -/
structure Exchange where
  outside : Outside
  node : Node
  req : Request
  asked : Option Op
  reply : Reply

/-- What an exchange is in the store before it, and the store then. -/
inductive Right (tokenFile : Option String) (exchange : Exchange) (before : Store) : Store → Prop where
  | asked {op : Op} {status : UInt16} {body : Json} {after : Store}
      (asks : Asks exchange.outside tokenFile exchange.req op) (same : exchange.asked = some op)
      (replied : exchange.reply = some (status, body))
      (answers : Answers exchange.outside exchange.node before op status body after) :
      Right tokenFile exchange before after
  | unasked (none : exchange.asked = none)
      (replied : Unasked exchange.outside tokenFile exchange.req exchange.reply) :
      Right tokenFile exchange before before

/-- What is served once an operation is known to have ended with this status. -/
def Op.tells (op : Op) (status : UInt16) (served : Served) : Served :=
  match op with
  | .apply name spec =>
      if status = 200 ∨ status = 201 ∨ status = 500 then Function.update served name (some spec)
      else served
  | .remove name => if status = 200 ∨ status = 500 then Function.update served name none else served
  | _ => served

/-- A reply without an operation tells nothing. -/
def Exchange.tells (exchange : Exchange) (served : Served) : Served :=
  match exchange.asked, exchange.reply with
  | some op, some (status, _) => op.tells status served
  | _, _ => served

/-! ## One request -/

/-- The first operation of a program. -/
def firstOp {α : Type} : Prog α → Option Op
  | .call op _ => some op
  | .done _ => none

section

variable (outside : Outside) (tokenFile : Option String) (node : Node)

/-- A request served, as an exchange. -/
def exchangeOf (req : Request) (r : Registry) : Exchange × Registry :=
  (⟨outside, node, req, firstOp (handle outside tokenFile req),
      ((handle outside tokenFile req).serve node.answer r).1⟩,
    ((handle outside tokenFile req).serve node.answer r).2)

end

/-- The errors that say that nothing was served differently. -/
theorem errorStatus_of_refuses {error : ApplyError} (refuses : error.Refuses) :
    errorStatus error = 400 ∨ errorStatus error = 409 := by
  rcases refuses with ⟨reason, rfl⟩ | ⟨reason, rfl⟩
  · exact .inl rfl
  · exact .inr rfl

/-- The status alone tells what is served then. -/
theorem Answers.specs {outside : Outside} {node : Node} {before after : Store} {op : Op}
    {status : UInt16} {body : Json} (answers : Answers outside node before op status body after) :
    after.specs = op.tells status before.specs := by
  cases answers with
  | list sorted each all => rfl
  | shown shows => rfl
  | unknown absent => rfl
  | @applied v stored created after applies shows =>
      rw [applies.specs_of_ok, Op.tells, if_pos]
      cases created with
      | true => exact .inr (.inl rfl)
      | false => exact .inl rfl
  | notApplied applies =>
      rcases applies.specs_of_error with ⟨refuses, same⟩ | ⟨⟨path, lost, rfl⟩, sets⟩
      · rw [same, Op.tells, if_neg]
        rcases errorStatus_of_refuses refuses with status | status
        · rw [status]
          decide
        · rw [status]
          decide
      · rw [sets]
        rfl
  | removed removes =>
      rw [removes.specs_of_ok]
      rfl
  | notRemoved removes =>
      rcases removes.specs_of_error with ⟨rfl | ⟨reason, rfl⟩, same⟩ | ⟨⟨path, lost, rfl⟩, sets⟩
      · exact same
      · exact same
      · rw [sets]
        rfl

/-- An exchange tells what is served after it. -/
theorem Right.specs {tokenFile : Option String} {exchange : Exchange} {before after : Store}
    (right : Right tokenFile exchange before after) :
    after.specs = exchange.tells before.specs := by
  cases right with
  | asked asks same replied answers =>
      rw [Exchange.tells, same, replied]
      exact answers.specs
  | unasked none replied =>
      rw [Exchange.tells, none]

/-! ## What the handler does -/

section

variable {outside : Outside} {node : Node} {r : Registry}

/-- A program that asks the store one thing, and replies what the store answers. -/
def AnswersOn (outside : Outside) (node : Node) (r : Registry) (op : Op) (program : Prog Reply) :
    Prop :=
  firstOp program = some op ∧ ∃ status body,
    (program.serve node.answer r).1 = some (status, body) ∧
      Answers outside node r.store op status body (program.serve node.answer r).2.store

theorem shows_view {name : String} {e : Entry} (present : r.vips[name]? = some e)
    (shown : Handle → Vrrp.State) : Shows r.store (view shown name e) e.stored where
  here := Registry.store_served_of_getElem? present
  spec := rfl
  listening := rfl
  source := rfl
  healthy := rfl

/-- `GET` of one VIP. -/
theorem answers_get (name : String) : AnswersOn outside node r (.get name)
    (.call (.get name) fun
      | some v => reply 200 v.toJson
      | none => refuse 404 s!"no VIP {name}") := by
  refine ⟨rfl, ?_⟩
  rw [Program.serve_call, Node.answer, Registry.get]
  cases present : r.vips[name]? with
  | none => exact ⟨404, _, rfl, .unknown (Registry.store_served_of_absent present)⟩
  | some e => exact ⟨200, _, rfl, .shown (shows_view present node.shown)⟩

/-- `GET` of all. -/
theorem answers_list : AnswersOn outside node r .list
    (.call .list fun vips => reply 200 (.object [("vips", .array (vips.map VipView.toJson))])) := by
  refine ⟨rfl, 200, _, rfl, .list ?_ ?_ ?_⟩
  · have ordered : r.vips.toList.Pairwise fun first second => compare first.1 second.1 = .lt :=
      Std.ExtTreeMap.ordered_keys_toList
    exact List.pairwise_map.mpr ordered
  · intro v member
    obtain ⟨⟨name, e⟩, inside, rfl⟩ := List.mem_map.mp member
    have present := Std.ExtTreeMap.mem_toList_iff_getElem?_eq_some.mp inside
    exact ⟨_, shows_view present node.shown⟩
  · intro name served
    cases present : r.vips[name]? with
    | none => exact absurd (Registry.store_served_of_absent present) served
    | some e =>
        have inside := Std.ExtTreeMap.mem_toList_iff_getElem?_eq_some.mpr present
        exact ⟨view node.shown name e, List.mem_map.mpr ⟨(name, e), inside, rfl⟩, rfl⟩

/-- `DELETE` -/
theorem answers_remove (name : String) : AnswersOn outside node r (.remove name)
    (.call (.remove name) fun
      | .ok () => reply 200 (.object [("deleted", .string name)])
      | .error e => error outside e) := by
  refine ⟨rfl, ?_⟩
  have removes := r.remove_removes node.serde node.writeAtomic name
  rw [Program.serve_call, Node.answer]
  generalize r.remove node.serde node.writeAtomic name = result at removes ⊢
  obtain ⟨returned, after⟩ := result
  cases returned with
  | ok _ => exact ⟨200, _, rfl, .removed removes⟩
  | error e => exact ⟨errorStatus e, _, rfl, .notRemoved removes⟩

/-- What was applied is shown. -/
theorem exists_view_of_specs {after : Registry} {name : String} {spec : VipSpec}
    (served : after.store.specs name = some spec) (shown : Handle → Vrrp.State) :
    ∃ v stored, after.get shown name = some v ∧ Shows after.store v stored ∧ v.name = name ∧
      v.spec = spec := by
  rw [Store.specs, Option.map_eq_some_iff] at served
  obtain ⟨stored, here, rfl⟩ := served
  rw [Registry.store_served, Option.map_eq_some_iff] at here
  obtain ⟨e, present, rfl⟩ := here
  refine ⟨view shown name e, e.stored, ?_, shows_view present shown, rfl, rfl⟩
  rw [Registry.get, present]
  rfl

/-- `PUT` -/
theorem answers_apply (name : String) (spec : VipSpec) : AnswersOn outside node r (.apply name spec)
    (.call (.apply name spec) fun
      | .ok created => do
          let shown ← perform (.get name)
          reply (if created then 201 else 200) ((shown.map VipView.toJson).getD .null)
      | .error e => error outside e) := by
  refine ⟨rfl, ?_⟩
  have applies := r.apply_applies node.serde node.env node.writeAtomic name spec
  rw [Program.serve_call, Node.answer]
  generalize r.apply node.serde node.env node.writeAtomic name spec = result at applies ⊢
  obtain ⟨returned, after⟩ := result
  dsimp only at applies ⊢
  cases returned with
  | error e => exact ⟨errorStatus e, _, rfl, .notApplied applies⟩
  | ok created =>
      have here : after.store.specs name = some spec := by
        rw [applies.specs_of_ok, Function.update_self]
      obtain ⟨v, stored, shown, shows, rfl, rfl⟩ := exists_view_of_specs here node.shown
      have get : (Program.serve node.answer (.call (.get v.name) fun shown =>
          reply (if created then 201 else 200) ((shown.map VipView.toJson).getD .null)) after) =
            (some (if created then 201 else 200, v.toJson), after) := by
        rw [Program.serve_call, Node.answer, shown]
        rfl
      refine ⟨_, _, congrArg Prod.fst get, ?_⟩
      refine Eq.subst (motive := fun ended => Answers _ _ _ _ _ _ (Prod.snd ended).store) get.symm ?_
      exact .applied applies shows

/-- What a program came to, as an exchange. -/
def RightOn (outside : Outside) (tokenFile : Option String) (node : Node) (req : Request)
    (r : Registry) (program : Prog Reply) : Prop :=
  Right tokenFile ⟨outside, node, req, firstOp program, (program.serve node.answer r).1⟩ r.store
    (program.serve node.answer r).2.store

variable {tokenFile : Option String} {req : Request} {op : Op} {program : Prog Reply}

theorem AnswersOn.right (answered : AnswersOn outside node r op program)
    (asks : Asks outside tokenFile req op) : RightOn outside tokenFile node req r program := by
  obtain ⟨first, status, body, replied, answers⟩ := answered
  exact .asked asks first replied answers

theorem right_done {reply : Reply} (replied : Unasked outside tokenFile req reply) :
    RightOn outside tokenFile node req r (.done reply) :=
  .unasked rfl replied

theorem right_handleVip {name : String} (valid : Authorized outside tokenFile req)
    (leads : Leads req.pathOnly name) :
    RightOn outside tokenFile node req r (handleVip outside name req) := by
  unfold handleVip
  split
  · rename_i get
    exact (answers_get name).right (.get valid leads get)
  · rename_i put
    split
    · rename_i unreadable
      exact right_done (.unread valid leads put unreadable)
    · rename_i parsed
      exact (answers_apply name _).right (.apply valid leads put parsed)
  · rename_i delete
    exact (answers_remove name).right (.remove valid leads delete)
  · rename_i get put delete
    exact right_done (.method valid leads (by simpa using ⟨get, put, delete⟩))

/-- Past the list, what follows the first byte is the name. -/
theorem right_longer {c : Char} {rest : List Char} (valid : Authorized outside tokenFile req)
    (path : req.pathOnly = vipsPath ++ c :: rest) (longer : ¬ Lists req.pathOnly) :
    RightOn outside tokenFile node req r
      (if c.utf8Size = 1 then
        if '/' ∈ rest ∨ rest = [] then noSuchPath req.pathOnly
        else handleVip outside (String.ofList rest) req
      else .done none) := by
  by_cases ascii : c.utf8Size = 1
  · rw [if_pos ascii]
    by_cases unnamed : '/' ∈ rest ∨ rest = []
    · rw [if_pos unnamed]
      exact right_done (.nameless valid path ascii longer unnamed)
    · rw [if_neg unnamed]
      obtain ⟨noSlash, nonempty⟩ := not_or.mp unnamed
      refine right_handleVip valid ⟨⟨c, ascii, ?_⟩, ?_, ?_⟩
      · rw [String.toList_ofList]
        exact path
      · intro empty
        refine nonempty ?_
        rw [← String.toList_ofList (l := rest), empty]
        rfl
      · rw [String.toList_ofList]
        exact noSlash
  · rw [if_neg ascii]
    exact right_done (.panics valid path ascii)

variable (outside tokenFile node req r) in
/-- Every request is answered rightly. -/
theorem right_handle : RightOn outside tokenFile node req r (handle outside tokenFile req) := by
  by_cases health : req.pathOnly = "/healthz".toList
  · unfold handle
    rw [if_pos health]
    by_cases get : req.method = "GET"
    · rw [if_pos get]
      exact right_done (.healthy health get)
    · rw [if_neg get]
      exact right_done (.healthMethod health get)
  cases stripped : stripPrefix vipsPath req.pathOnly with
  | none =>
      unfold handle
      rw [if_neg health, stripped]
      refine right_done (.elsewhere health ?_)
      rintro ⟨rest, same⟩
      rw [stripPrefix_eq_some_iff.mpr same.symm] at stripped
      cases stripped
  | some rest =>
      have path := stripPrefix_eq_some_iff.mp stripped
      cases token : authorized outside tokenFile req.authorization with
      | error refused =>
          obtain ⟨status, message⟩ := refused
          unfold handle
          rw [if_neg health, stripped]
          dsimp only
          rw [token]
          exact right_done (.unauthorized ⟨rest, path.symm⟩ token)
      | ok _ =>
          have valid : Authorized outside tokenFile req := token
          by_cases bare : rest = [] ∨ rest = ['/']
          · have lists : Lists req.pathOnly := by
              rw [Lists, path]
              rcases bare with rfl | rfl
              · exact .inl (List.append_nil _)
              · exact .inr rfl
            unfold handle
            rw [if_neg health, stripped]
            dsimp only
            rw [token]
            dsimp only
            rw [if_pos bare]
            by_cases get : req.method = "GET"
            · rw [if_pos get]
              exact answers_list.right (.list valid lists get)
            · rw [if_neg get]
              exact right_done (.listMethod valid lists get)
          · obtain ⟨c, name, rfl⟩ := List.exists_cons_of_ne_nil fun empty => bare (.inl empty)
            have longer : ¬ Lists req.pathOnly := by
              rw [Lists, path]
              rintro (empty | slash)
              · exact bare (.inl (List.append_right_eq_self.mp empty))
              · exact bare (.inr (List.append_cancel_left slash))
            rw [handle_of_longer valid health stripped fun slash => bare (.inr slash)]
            exact right_longer valid path longer

end

/-! ## Runs -/

/-- What happens at a node: requests, probes, connections, health rounds. -/
inductive Event where
  | request (outside : Outside) (node : Node) (req : Request)
  | probed (name : String) (id : Nat) (healthy : Bool)
  | connected (name : String)
  | woken (name : String)

section

variable (tokenFile : Option String)

/-- An event, with the exchange when it is a request. -/
def Event.happens (r : Registry) : Event → List Exchange × Registry
  | .request outside node req =>
      ([(exchangeOf outside tokenFile node req r).1], (exchangeOf outside tokenFile node req r).2)
  | .probed name id healthy => ([], r.run (.probed name id healthy))
  | .connected name => ([], r.run (.connected name))
  | .woken name => ([], r.run (.woken name))

def happenAll : List Event → Registry → List Exchange × Registry
  | [], r => ([], r)
  | event :: rest, r =>
      ((event.happens tokenFile r).1 ++ (happenAll rest (event.happens tokenFile r).2).1,
        (happenAll rest (event.happens tokenFile r).2).2)

/-- An event is one right exchange, or leaves the store alone. -/
theorem Event.happens_cases (event : Event) (r : Registry) :
    ((event.happens tokenFile r).1 = [] ∧ (event.happens tokenFile r).2.store = r.store) ∨
      ∃ exchange, (event.happens tokenFile r).1 = [exchange] ∧
        Right tokenFile exchange r.store (event.happens tokenFile r).2.store := by
  cases event with
  | request outside node req => exact .inr ⟨_, rfl, right_handle outside node r tokenFile req⟩
  | probed name id healthy =>
      exact .inl ⟨rfl, r.background_store name
        (fun e => { e with pool := e.pool.setHealthy id healthy }) fun _ => rfl⟩
  | connected name =>
      exact .inl ⟨rfl, r.background_store name (fun e => { e with pool := e.pool.pick.2 })
        fun _ => rfl⟩
  | woken name =>
      exact .inl ⟨rfl, r.background_store name
        (fun e => { e with checker := { e.checker with wake := false } }) fun _ => rfl⟩

end

/-! ## Reading what was written -/

/-- The exchange leaves what is served under the name, whatever that is. -/
def Exchange.Spares (exchange : Exchange) (name : String) : Prop :=
  ∀ served : Served, exchange.tells served name = served name

/-- Exchanges that all leave a name alone leave what is served under it. -/
theorem happenAll_spares {tokenFile : Option String} {name : String} (events : List Event)
    (r : Registry) (spared : ∀ exchange ∈ (happenAll tokenFile events r).1, exchange.Spares name) :
    (happenAll tokenFile events r).2.store.specs name = r.store.specs name := by
  induction events generalizing r with
  | nil => rfl
  | cons event rest ih =>
      rw [happenAll] at spared ⊢
      have later := ih _ fun exchange member => spared exchange (List.mem_append_right _ member)
      rcases event.happens_cases tokenFile r with ⟨_, same⟩ | ⟨exchange, one, right⟩
      · rw [later, same]
      · have here : exchange.Spares name := by
          refine spared exchange (List.mem_append_left _ ?_)
          rw [one]
          exact List.mem_singleton_self exchange
        rw [later, right.specs]
        exact here _

/-- With a valid token, the path of a VIP leads to that VIP. -/
theorem handle_of_pathOf {outside : Outside} {tokenFile : Option String} {req : Request}
    {name : String} (valid : Authorized outside tokenFile req) (named : PathOf req.pathOnly name) :
    handle outside tokenFile req = handleVip outside name req := by
  have stripped := stripPrefix_eq_some_iff.mpr named.path
  have health : req.pathOnly ≠ "/healthz".toList := by
    intro same
    rw [same, stripPrefix_vipsPath_healthz] at stripped
    cases stripped
  have nonempty : name.toList ≠ [] := fun empty => named.nonempty (String.toList_eq_nil_iff.mp empty)
  have longer : '/' :: name.toList ≠ ['/'] := fun same => nonempty (List.cons.inj same).2
  rw [handle_of_longer valid health stripped longer, if_pos (by decide),
    if_neg (not_or.mpr ⟨named.noSlash, nonempty⟩), String.ofList_toList]

section

variable {outside later : Outside} {tokenFile : Option String} {node others : Node} {r : Registry}
  {put get : Request} {name : String} {spec : VipSpec} {status : UInt16} {body : Json}
  {events : List Event}

/--
Once a `PUT` was answered that its spec is applied, saved or not, a later `GET`
shows that spec, unless a request in between changed the VIP.
-/
theorem reads_what_was_put (valid : Authorized outside tokenFile put)
    (path : PathOf put.pathOnly name) (method : put.method = "PUT")
    (parsed : outside.fromSlice put.body = .ok spec)
    (told : (exchangeOf outside tokenFile node put r).1.reply = some (status, body))
    (applied : status = 200 ∨ status = 201 ∨ status = 500)
    (spared : ∀ exchange ∈ (happenAll tokenFile events (exchangeOf outside tokenFile node put r).2).1,
      exchange.Spares name)
    (allowed : Authorized later tokenFile get) (again : PathOf get.pathOnly name)
    (reads : get.method = "GET") :
    ∃ v : VipView, v.name = name ∧ v.spec = spec ∧
      (exchangeOf later tokenFile others get
        (happenAll tokenFile events (exchangeOf outside tokenFile node put r).2).2).1.reply =
          some (200, v.toJson) := by
  have right := right_handle outside node r tokenFile put
  have asked : firstOp (handle outside tokenFile put) = some (.apply name spec) := by
    rw [handle_of_pathOf valid path, handleVip, method, parsed]
    rfl
  have set : (exchangeOf outside tokenFile node put r).2.store.specs name = some spec := by
    have tells := congrFun right.specs name
    rw [Exchange.tells, asked, show (Program.serve node.answer (handle outside tokenFile put) r).1 =
      some (status, body) from told] at tells
    have sets : Op.tells (.apply name spec) status r.store.specs name = some spec := by
      rw [Op.tells, if_pos applied, Function.update_self]
    exact tells.trans sets
  generalize (exchangeOf outside tokenFile node put r).2 = middle at set spared ⊢
  have kept := happenAll_spares events middle spared
  rw [set] at kept
  obtain ⟨v, stored, shown, _, rfl, rfl⟩ := exists_view_of_specs kept others.shown
  refine ⟨v, rfl, rfl, ?_⟩
  rw [exchangeOf, handle_of_pathOf allowed again, handleVip, reads]
  simp [Node.answer, shown, reply]

end

/-! ## A VIP put and read -/

/-- The body is the spec of two apiservers. -/
def apiserversOutside : Outside :=
  { nothingOutside with fromSlice := fun _ => .ok apiservers }

def quietNode : Node where
  serde := ⟨fun _ => "", fun _ => .ok ∅⟩
  env := freeNode
  writeAtomic := fun _ _ => .ok ()
  shown := fun _ => .backup

def putK8s : Request where
  method := "PUT"
  path := "/api/v1/vips/k8s"
  authorization := none
  body := []

def getK8s : Request :=
  { putK8s with method := "GET" }

theorem pathOf_k8s : PathOf "/api/v1/vips/k8s".toList "k8s" :=
  ⟨by decide, by decide, by decide⟩

theorem reads_what_was_put_k8s :
    ∃ v : VipView, v.name = "k8s" ∧ v.spec = apiservers ∧
      (exchangeOf apiserversOutside none quietNode getK8s
        (happenAll none [.connected "k8s", .woken "k8s"]
          (exchangeOf apiserversOutside none quietNode putK8s (Registry.new none)).2).2).1.reply =
            some (200, v.toJson) := by
  have created : (exchangeOf apiserversOutside none quietNode putK8s
      (Registry.new none)).1.reply.map Prod.fst = some 201 := by decide +kernel
  obtain ⟨⟨status, body⟩, told, rfl⟩ := Option.map_eq_some_iff.mp created
  exact reads_what_was_put rfl pathOf_k8s rfl rfl told (.inr (.inl rfl)) nofun rfl pathOf_k8s rfl

end StormLb.Api
