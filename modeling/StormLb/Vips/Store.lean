import StormLb.Vips.SaveOrder

/-!
# The registry as a store

What a client can know of the registry: what is served, what is saved but did
not start, and where changes are saved.  A change of the registry is a step of
this store: it is refused for a reason that holds, or made when there is none.
-/

namespace StormLb.Vips

open StormLb.Net StormLb.Health

/-- A VIP as the store has it: its spec, whether the config file declares it, and its listener. -/
structure Stored where
  spec : VipSpec
  fromConfig : Bool
  listen : SocketAddr

structure Store where
  served : String → Option Stored
  pending : String → Option VipSpec
  stateFile : Option String

/-- The names that are served, with their specs. -/
abbrev Served := String → Option VipSpec

namespace Store

variable (store : Store) (serde : Serde) (env : Environment)
  (writeAtomic : String → String → Except String Unit) (name : String) (spec : VipSpec)

def specs : Served :=
  fun name => (store.served name).map Stored.spec

def listens : Option SocketAddr :=
  (store.served name).map Stored.listen

/-- One VIP is served, or served differently. -/
def set (stored : Stored) : Store :=
  { store with served := Function.update store.served name (some stored) }

/-- It is served no more. -/
def drop : Store :=
  { store with served := Function.update store.served name none }

/-- It is pending no more. -/
def unpend : Store :=
  { store with pending := Function.update store.pending name none }

/-- What belongs in the state file: the API's specs, and over the others the pending ones. -/
def saved : Served :=
  fun name =>
    match store.served name with
    | some stored => if stored.fromConfig then store.pending name else some stored.spec
    | none => store.pending name

/-- What saving the store comes to. -/
inductive Saves : Except ApplyError Unit → Prop where
  | nowhere (unset : store.stateFile = none) : Saves (.ok ())
  | written {path : String} {saved : State} (set : store.stateFile = some path)
      (content : ∀ name, saved[name]? = store.saved name)
      (wrote : writeAtomic path (serde.toStringPretty saved) = .ok ()) : Saves (.ok ())
  | failed {path error : String} {saved : State} (set : store.stateFile = some path)
      (content : ∀ name, saved[name]? = store.saved name)
      (lost : writeAtomic path (serde.toStringPretty saved) = .error error) :
      Saves (.error (.notSaved path error))

/-- What stands in the way of serving the spec under the name. -/
inductive Obstacle : ApplyError → Prop where
  | name {error : ApplyError} (bad : validName name = .error error) : Obstacle error
  | config {stored : Stored} (here : store.served name = some stored)
      (declared : stored.fromConfig = true) : Obstacle (.conflict (.changesConfig name))
  | spec {error : ApplyError} (bad : check spec = .error error) : Obstacle error
  | listener {c : Checked} {other : String} (checked : check spec = .ok c) (apart : other ≠ name)
      (taken : store.listens other = some c.listen) :
      Obstacle (.conflict (.listener c.listen other))
  | health {error : String} (unusable : client env.first spec.health = .error error) :
      Obstacle (.invalid (.health error))
  | bind {c : Checked} {error : String} (checked : check spec = .ok c)
      (moves : store.listens name ≠ some c.listen) (busy : env.bind c.listen = .error error) :
      Obstacle (.conflict (.bind error))

/-- Nothing stands in the way. -/
def Clear : Prop :=
  ∀ error, ¬ store.Obstacle env name spec error

/-- What an `apply` returns, and the store then. -/
inductive Applies : Except ApplyError Bool → Store → Prop where
  | refused {error : ApplyError} (obstacle : store.Obstacle env name spec error) :
      Applies (.error error) store
  -- The CA file of a VIP that is served is read once more, after its listener was moved.
  | halfway {c : Checked} {stored : Stored} {error : String} (clear : store.Clear env name spec)
      (checked : check spec = .ok c) (here : store.served name = some stored)
      (unusable : client env.second spec.health = .error error) :
      Applies (.error (.invalid (.health error))) (store.set name { stored with listen := c.listen })
  | applied {c : Checked} {saving : Except ApplyError Unit} (clear : store.Clear env name spec)
      (checked : check spec = .ok c)
      (usable : store.served name ≠ none → ∃ built, client env.second spec.health = .ok built)
      (saves : ((store.set name ⟨spec, false, c.listen⟩).unpend name).Saves serde writeAtomic saving) :
      Applies (saving.map fun _ => (store.served name).isNone)
        ((store.set name ⟨spec, false, c.listen⟩).unpend name)

/-- What a `remove` returns, and the store then. -/
inductive Removes : Except ApplyError Unit → Store → Prop where
  | absent (unknown : store.served name = none) (settled : store.pending name = none) :
      Removes (.error (.notFound name)) store
  | kept {stored : Stored} (here : store.served name = some stored)
      (declared : stored.fromConfig = true) : Removes (.error (.conflict (.removesConfig name))) store
  | forgotten {saving : Except ApplyError Unit} (unknown : store.served name = none)
      (waits : store.pending name ≠ none) (saves : (store.unpend name).Saves serde writeAtomic saving) :
      Removes saving (store.unpend name)
  | taken {stored : Stored} {saving : Except ApplyError Unit}
      (here : store.served name = some stored) (api : stored.fromConfig = false)
      (saves : (store.drop name).Saves serde writeAtomic saving) : Removes saving (store.drop name)

end Store

/-! ## How a change is refused -/

/-- The errors of a computation say that the request is invalid. -/
def OnlyInvalid {α : Type} (result : Except ApplyError α) : Prop :=
  ∀ error, result = .error error → ∃ reason, error = .invalid reason

theorem OnlyInvalid.ok {α : Type} (value : α) : OnlyInvalid (.ok value) :=
  nofun

theorem OnlyInvalid.error {α : Type} (reason : Invalid) :
    OnlyInvalid (.error (.invalid reason) : Except ApplyError α) := by
  rintro error ⟨⟩
  exact ⟨reason, rfl⟩

theorem OnlyInvalid.bind {α β : Type} {first : Except ApplyError α}
    {rest : α → Except ApplyError β} (invalid : OnlyInvalid first)
    (later : ∀ value, OnlyInvalid (rest value)) : OnlyInvalid (first >>= rest) := by
  cases first with
  | error e =>
      rintro error ⟨⟩
      exact invalid e rfl
  | ok value => exact later value

theorem OnlyInvalid.mapM {α β : Type} {f : α → Except ApplyError β}
    (each : ∀ a, OnlyInvalid (f a)) (as : List α) : OnlyInvalid (as.mapM f) := by
  induction as with
  | nil => exact .ok []
  | cons a rest ih =>
      rw [List.mapM_cons]
      exact (each a).bind fun b => ih.bind fun bs => .ok (b :: bs)

theorem onlyInvalid_refuseIf (condition : Prop) [Decidable condition] (reason : Invalid) :
    OnlyInvalid (refuseIf condition reason) := by
  unfold refuseIf
  split
  · exact .error reason
  · exact .ok ()

theorem onlyInvalid_parseOr (text : String) (reason : Invalid) :
    OnlyInvalid (parseOr text reason) := by
  unfold parseOr
  split
  · exact .ok _
  · exact .error reason

theorem onlyInvalid_checkBackend (b : BackendSpec) : OnlyInvalid (checkBackend b) :=
  (onlyInvalid_parseOr _ _).bind fun _ => (onlyInvalid_refuseIf _ _).bind fun _ => .ok _

theorem onlyInvalid_checkHealth (h : Config.HealthSpec) : OnlyInvalid (checkHealth h) :=
  (onlyInvalid_refuseIf _ _).bind fun _ => (onlyInvalid_refuseIf _ _).bind fun _ =>
    onlyInvalid_refuseIf _ _

theorem onlyInvalid_checkVrrp (vip : IpAddr) (v : VrrpSpec) : OnlyInvalid (checkVrrp vip v) := by
  cases vip with
  | v6 v6 => exact .error _
  | v4 v4 =>
      exact (onlyInvalid_refuseIf _ _).bind fun _ => (onlyInvalid_refuseIf _ _).bind fun _ =>
        (onlyInvalid_refuseIf _ _).bind fun _ => .ok v4

theorem onlyInvalid_check (spec : VipSpec) : OnlyInvalid (check spec) := by
  refine (onlyInvalid_parseOr _ _).bind fun vip => (onlyInvalid_refuseIf _ _).bind fun _ => ?_
  refine OnlyInvalid.bind ?_ fun bindIp => ?_
  · cases spec.bind with
    | none => exact .ok vip
    | some b => exact onlyInvalid_parseOr b _
  · refine (OnlyInvalid.mapM onlyInvalid_checkBackend _).bind fun backends => ?_
    refine (onlyInvalid_checkHealth _).bind fun _ => OnlyInvalid.bind ?_ fun vrrpVip => .ok _
    cases spec.vrrp with
    | none => exact .ok none
    | some v => exact (onlyInvalid_checkVrrp vip v).bind fun v4 => .ok (some v4)

/-- The errors of a change that was not applied. -/
def ApplyError.Refuses (error : ApplyError) : Prop :=
  (∃ reason, error = .invalid reason) ∨ ∃ reason, error = .conflict reason

theorem Store.Obstacle.refuses {store : Store} {env : Environment} {name : String} {spec : VipSpec}
    {error : ApplyError} (obstacle : store.Obstacle env name spec error) : error.Refuses := by
  cases obstacle with
  | name bad =>
      unfold validName at bad
      dsimp only at bad
      split at bad
      · cases bad
      · cases bad
        exact .inl ⟨_, rfl⟩
  | config here declared => exact .inr ⟨_, rfl⟩
  | spec bad => exact .inl (onlyInvalid_check spec error bad)
  | listener checked apart taken => exact .inr ⟨_, rfl⟩
  | health unusable => exact .inl ⟨_, rfl⟩
  | bind checked moves busy => exact .inr ⟨_, rfl⟩

/-! ## What is served after a change -/

namespace Store

variable {store after : Store} {serde : Serde} {env : Environment}
  {writeAtomic : String → String → Except String Unit} {name : String} {spec : VipSpec}

theorem served_set (store : Store) (name other : String) (stored : Stored) :
    (store.set name stored).served other =
      if other = name then some stored else store.served other :=
  Function.update_apply ..

theorem served_drop (store : Store) (name other : String) :
    (store.drop name).served other = if other = name then none else store.served other :=
  Function.update_apply ..

theorem specs_set (store : Store) (name : String) (stored : Stored) :
    (store.set name stored).specs = Function.update store.specs name (some stored.spec) :=
  Function.comp_update (Option.map Stored.spec) store.served name (some stored)

theorem specs_drop (store : Store) (name : String) :
    (store.drop name).specs = Function.update store.specs name none :=
  Function.comp_update (Option.map Stored.spec) store.served name none

/-- Nothing is served under a name that is unknown. -/
theorem specs_of_unknown (unknown : store.served name = none) :
    store.specs = Function.update store.specs name none := by
  rw [eq_comm, Function.update_eq_self_iff, specs, unknown]
  rfl

@[simp] theorem specs_unpend (store : Store) (name : String) :
    (store.unpend name).specs = store.specs :=
  rfl

/-- A listener that moved is not in the specs. -/
theorem specs_moved {stored : Stored} (here : store.served name = some stored)
    (listen : SocketAddr) : (store.set name { stored with listen }).specs = store.specs := by
  rw [specs_set, Function.update_eq_self_iff, specs, here]
  rfl

theorem Saves.notSaved {error : ApplyError} (saves : store.Saves serde writeAtomic (.error error)) :
    ∃ path lost, error = .notSaved path lost := by
  cases saves with
  | failed set content lost => exact ⟨_, _, rfl⟩

theorem Applies.specs_of_ok {created : Bool}
    (applies : store.Applies serde env writeAtomic name spec (.ok created) after) :
    after.specs = Function.update store.specs name (some spec) := by
  generalize result : Except.ok created = returned at applies
  cases applies with
  | refused obstacle => cases result
  | halfway clear checked here unusable => cases result
  | applied clear checked usable saves => rw [specs_unpend, specs_set]

/-- A change that fails is refused, or was made but not saved. -/
theorem Applies.specs_of_error {error : ApplyError}
    (applies : store.Applies serde env writeAtomic name spec (.error error) after) :
    (error.Refuses ∧ after.specs = store.specs) ∨ (∃ path lost, error = .notSaved path lost) ∧
      after.specs = Function.update store.specs name (some spec) := by
  generalize result : Except.error error = returned at applies
  cases applies with
  | refused obstacle =>
      cases result
      exact .inl ⟨obstacle.refuses, rfl⟩
  | halfway clear checked here unusable =>
      cases result
      exact .inl ⟨.inl ⟨_, rfl⟩, specs_moved here _⟩
  | @applied c saving clear checked usable saves =>
      cases saving with
      | ok _ => cases result
      | error lost =>
          cases result
          exact .inr ⟨saves.notSaved, by rw [specs_unpend, specs_set]⟩

theorem Removes.specs_of_ok (removes : store.Removes serde writeAtomic name (.ok ()) after) :
    after.specs = Function.update store.specs name none := by
  generalize result : Except.ok () = returned at removes
  cases removes with
  | absent unknown settled => cases result
  | kept here declared => cases result
  | forgotten unknown waits saves => exact specs_of_unknown unknown
  | taken here api saves => exact specs_drop store name

/-- A removal that fails is refused, or was made but not saved. -/
theorem Removes.specs_of_error {error : ApplyError}
    (removes : store.Removes serde writeAtomic name (.error error) after) :
    ((error = .notFound name ∨ ∃ reason, error = .conflict reason) ∧ after.specs = store.specs) ∨
      (∃ path lost, error = .notSaved path lost) ∧
        after.specs = Function.update store.specs name none := by
  cases removes with
  | absent unknown settled => exact .inl ⟨.inl rfl, rfl⟩
  | kept here declared => exact .inl ⟨.inr ⟨_, rfl⟩, rfl⟩
  | forgotten unknown waits saves => exact .inr ⟨saves.notSaved, specs_of_unknown unknown⟩
  | taken here api saves => exact .inr ⟨saves.notSaved, specs_drop store name⟩

end Store

/-! ## The store of a registry -/

def Entry.stored (e : Entry) : Stored where
  spec := e.spec
  fromConfig := e.fromConfig
  listen := e.listen

def Registry.store (r : Registry) : Store where
  served name := r.vips[name]?.map Entry.stored
  pending name := r.pending[name]?
  stateFile := r.stateFile

namespace Registry

variable {r after : Registry} {env : Environment} {name : String} {spec : VipSpec}

theorem SameBesides.store {e : Entry} (same : r.SameBesides name e after) :
    after.store = r.store.set name e.stored := by
  have served (other : String) : after.store.served other =
      (r.store.set name e.stored).served other := by
    rw [Store.served_set]
    change (after.vips[other]?).map Entry.stored = _
    rw [same.getElem?]
    split
    · rfl
    · rfl
  rw [Store.set, Registry.store, Store.mk.injEq]
  refine ⟨funext served, ?_, same.stateFile⟩
  rw [same.pending]
  rfl

theorem store_served (r : Registry) (name : String) :
    r.store.served name = r.vips[name]?.map Entry.stored :=
  rfl

theorem store_served_of_getElem? {e : Entry} (present : r.vips[name]? = some e) :
    r.store.served name = some e.stored := by
  rw [store_served, present]
  rfl

theorem store_served_of_absent (absent : r.vips[name]? = none) : r.store.served name = none := by
  rw [store_served, absent]
  rfl

/-- Whether the config file declares a VIP is in the store. -/
theorem fromConfigAt_eq_true_iff :
    r.fromConfigAt name = true ↔
      ∃ stored, r.store.served name = some stored ∧ stored.fromConfig = true := by
  cases present : r.vips[name]? with
  | none => simp [fromConfigAt, present, store_served_of_absent present]
  | some e => simp [fromConfigAt, present, store_served_of_getElem? present, Entry.stored]

/-- The other VIP on a listener is in the store. -/
theorem listens_of_conflict {listen : SocketAddr} {other : String}
    (conflict : r.conflict name listen = some other) :
    other ≠ name ∧ r.store.listens other = some listen := by
  obtain ⟨⟨n, e⟩, found, rfl⟩ := Option.map_eq_some_iff.mp conflict
  have present := Std.ExtTreeMap.mem_toList_iff_getElem?_eq_some.mp (List.mem_of_find?_eq_some found)
  have apart := List.find?_some found
  simp only [bne_iff_ne, ne_eq, Bool.and_eq_true, beq_iff_eq] at apart
  refine ⟨apart.1, ?_⟩
  rw [Store.listens, store_served_of_getElem? present, ← apart.2]
  rfl

theorem not_listens_of_free {listen : SocketAddr} (free : r.conflict name listen = none)
    {other : String} (apart : other ≠ name) : r.store.listens other ≠ some listen := by
  intro taken
  rw [Store.listens, store_served, Option.map_map, Option.map_eq_some_iff] at taken
  obtain ⟨e, present, listens⟩ := taken
  exact apart (conflict_eq_none_iff.mp free other e present listens)

/-! ## What stands in the way -/

theorem bind_obstacle {c : Checked} {error : ApplyError} (checked : check spec = .ok c)
    (moves : r.store.listens name ≠ some c.listen) (failed : Vips.bind env c.listen = .error error) :
    r.store.Obstacle env name spec error := by
  unfold Vips.bind at failed
  split at failed
  · cases failed
  · rename_i busy
    cases failed
    exact .bind checked moves busy

theorem update_obstacle {c : Checked} {e : Entry} {error : ApplyError} (checked : check spec = .ok c)
    (free : r.conflict name c.listen = none) (present : r.vips[name]? = some e)
    (failed : r.update env name spec c e = (.error error, after)) :
    r.store.Obstacle env name spec error ∨ r.Admits env name spec c e := by
  unfold update healthOk at failed
  cases loads : client env.first spec.health with
  | error message =>
      rw [loads] at failed
      cases failed
      exact .inl (.health loads)
  | ok built =>
      rw [loads] at failed
      rcases r.moveListener_cases env c.listen e with ⟨moves, message, busy, refuses⟩ | ⟨binds, _⟩
      · rw [refuses] at failed
        cases failed
        refine .inl (.bind checked ?_ busy)
        rw [Store.listens, store_served_of_getElem? present]
        exact fun same => moves (Option.some.inj same).symm
      · exact .inr ⟨checked, free, present, ⟨built, loads⟩, binds⟩

theorem create_obstacle {c : Checked} {fromConfig : Bool} {error : ApplyError}
    (checked : check spec = .ok c) (absent : r.vips[name]? = none)
    (failed : r.create env name spec fromConfig c = (.error error, after)) :
    r.store.Obstacle env name spec error := by
  unfold create at failed
  cases built : Checker.new env.first spec.health with
  | error message =>
      rw [built] at failed
      cases failed
      exact .health (Checker.new_error built)
  | ok checker =>
      rw [built] at failed
      dsimp only [health] at failed
      split at failed
      · rename_i busy
        cases failed
        refine bind_obstacle checked ?_ busy
        rw [Store.listens, store_served_of_absent absent]
        exact nofun
      · cases failed

/-- A `put` fails for a reason that holds, or after it passed the checks on an entry. -/
theorem put_obstacle {fromConfig : Bool} {error : ApplyError}
    (failed : r.put env name spec fromConfig = (.error error, after)) :
    r.store.Obstacle env name spec error ∨ ∃ c e, r.Admits env name spec c e := by
  unfold put at failed
  cases checked : check spec with
  | error bad =>
      rw [checked] at failed
      cases failed
      exact .inl (.spec checked)
  | ok c =>
      rw [checked] at failed
      dsimp only at failed
      split at failed
      · rename_i conflict
        cases failed
        obtain ⟨apart, taken⟩ := listens_of_conflict conflict
        exact .inl (.listener checked apart taken)
      · rename_i free
        split at failed
        · rename_i e present
          exact (update_obstacle checked free present failed).imp_right fun admits => ⟨c, e, admits⟩
        · rename_i absent
          exact .inl (create_obstacle checked absent failed)

/-- The checks of a `put` that are passed leave nothing in the way. -/
theorem clear_of_checks {c : Checked} (named : validName name = .ok ())
    (api : r.fromConfigAt name = false) (checked : check spec = .ok c)
    (free : r.conflict name c.listen = none)
    (usable : ∃ built, client env.first spec.health = .ok built)
    (binds : r.store.listens name ≠ some c.listen → env.bind c.listen = .ok ()) :
    r.store.Clear env name spec := by
  intro error obstacle
  cases obstacle with
  | name bad =>
      rw [named] at bad
      cases bad
  | config here declared =>
      have configured := fromConfigAt_eq_true_iff.mpr ⟨_, here, declared⟩
      rw [api] at configured
      cases configured
  | spec bad =>
      rw [checked] at bad
      cases bad
  | listener checked' apart taken =>
      obtain rfl := Except.ok.inj (checked.symm.trans checked')
      exact not_listens_of_free free apart taken
  | health unusable =>
      obtain ⟨built, loads⟩ := usable
      rw [loads] at unusable
      cases unusable
  | bind checked' moves busy =>
      obtain rfl := Except.ok.inj (checked.symm.trans checked')
      rw [binds moves] at busy
      cases busy

theorem Admits.clear {c : Checked} {e : Entry} (admits : r.Admits env name spec c e)
    (named : validName name = .ok ()) (api : r.fromConfigAt name = false) :
    r.store.Clear env name spec := by
  refine clear_of_checks named api admits.checked admits.free admits.loads fun moves => ?_
  refine admits.binds fun same => moves ?_
  rw [Store.listens, store_served_of_getElem? admits.present, same]
  rfl

theorem create_clear {c : Checked} {fromConfig created : Bool} (named : validName name = .ok ())
    (api : r.fromConfigAt name = false) (checked : check spec = .ok c)
    (free : r.conflict name c.listen = none)
    (made : r.create env name spec fromConfig c = (.ok created, after)) :
    r.store.Clear env name spec := by
  unfold create Vips.bind at made
  cases built : Checker.new env.first spec.health with
  | error message =>
      rw [built] at made
      cases made
  | ok checker =>
      rw [built] at made
      dsimp only [health] at made
      cases bound : env.bind c.listen with
      | error message =>
          rw [bound] at made
          cases made
      | ok _ => exact clear_of_checks named api checked free ⟨_, Checker.new_client built⟩ fun _ => bound

theorem put_clear {c : Checked} {fromConfig created : Bool} (named : validName name = .ok ())
    (api : r.fromConfigAt name = false) (checked : check spec = .ok c)
    (free : r.conflict name c.listen = none) (absent : r.vips[name]? = none)
    (made : r.put env name spec fromConfig = (.ok created, after)) : r.store.Clear env name spec := by
  unfold put at made
  rw [checked] at made
  dsimp only at made
  rw [free] at made
  dsimp only at made
  rw [absent] at made
  exact create_clear named api checked free made

/-! ## What the operations do -/

theorem saved_getElem? (r : Registry) (name : String) : r.saved[name]? = r.store.saved name := by
  rw [saved, savedOver_getElem?, Store.saved, store_served]
  cases r.vips[name]? with
  | none => rfl
  | some e => rfl

theorem save_saves (r : Registry) (serde : Serde)
    (writeAtomic : String → String → Except String Unit) :
    r.store.Saves serde writeAtomic (r.save serde writeAtomic) := by
  unfold save
  split
  · rename_i unset
    exact .nowhere unset
  · rename_i path set
    split
    · rename_i wrote
      exact .written set r.saved_getElem? wrote
    · rename_i lost
      exact .failed set r.saved_getElem? lost

theorem store_unpend (r : Registry) (name : String) :
    { r with pending := r.pending.erase name }.store = r.store.unpend name := by
  have pending (other : String) : (r.pending.erase name)[other]? =
      Function.update r.store.pending name none other := by
    rw [Function.update_apply]
    split
    · rename_i here
      subst here
      exact Std.ExtTreeMap.getElem?_erase_self
    · rename_i apart
      exact getElem?_erase_of_ne apart
  rw [Store.unpend, store, Store.mk.injEq]
  exact ⟨rfl, funext pending, rfl⟩

theorem store_drop {e : Entry} (r : Registry) (name : String) :
    ({ r with vips := r.vips.erase name }.dropEntry e).store = r.store.drop name := by
  have served (other : String) : (r.vips.erase name)[other]?.map Entry.stored =
      (r.store.drop name).served other := by
    rw [Store.served_drop]
    split
    · rename_i here
      subst here
      rw [Std.ExtTreeMap.getElem?_erase_self]
      rfl
    · rename_i apart
      rw [getElem?_erase_of_ne apart]
      rfl
  rw [Store.drop, store, Store.mk.injEq]
  exact ⟨funext served, rfl, rfl⟩

/-- A `put` of a spec that nothing stands in the way of. -/
inductive Puts (r : Registry) (env : Environment) (name : String) (spec : VipSpec) :
    Except ApplyError Bool × Registry → Prop where
  | refused {error : ApplyError} (obstacle : r.store.Obstacle env name spec error) :
      Puts r env name spec (.error error, r)
  | halfway {c : Checked} {stored : Stored} {error : String} {after : Registry}
      (clear : r.store.Clear env name spec) (checked : check spec = .ok c)
      (here : r.store.served name = some stored)
      (unusable : client env.second spec.health = .error error)
      (moves : after.store = r.store.set name { stored with listen := c.listen }) :
      Puts r env name spec (.error (.invalid (.health error)), after)
  | applied {c : Checked} {after : Registry} (clear : r.store.Clear env name spec)
      (checked : check spec = .ok c)
      (usable : r.store.served name ≠ none → ∃ built, client env.second spec.health = .ok built)
      (sets : after.store = r.store.set name ⟨spec, false, c.listen⟩) :
      Puts r env name spec (.ok (r.store.served name).isNone, after)

theorem put_puts (named : validName name = .ok ()) (api : r.fromConfigAt name = false) :
    r.Puts env name spec (r.put env name spec false) := by
  have outcome := r.put_outcome env name spec false
  cases putting : r.put env name spec false with
  | mk result after =>
      rw [putting] at outcome
      cases outcome with
      | refused error refuses =>
          rcases put_obstacle putting with obstacle | ⟨c, e, admits⟩
          · exact .refused obstacle
          · exact absurd admits (refuses c e)
      | @halfway c e message _ admits fails same =>
          refine .halfway (admits.clear named api) admits.checked
            (store_served_of_getElem? admits.present) fails ?_
          rw [same.store, Entry.stored, Entry.halfway]
          simp only [Entry.moved_spec, Entry.moved_fromConfig, Entry.moved_listen]
          rfl
      | @updated c e replaced _ admits reloads replaces same =>
          have here := store_served_of_getElem? admits.present
          have source : e.fromConfig = false := by
            rw [← api, fromConfigAt, admits.present]
            rfl
          have applied : r.Puts env name spec (.ok (r.store.served name).isNone, after) := by
            refine .applied (admits.clear named api) admits.checked (fun _ => reloads) ?_
            rw [same.store, Entry.stored, replaces.setsSpec, replaces.keepsSource, source,
              replaces.setsListen]
          rw [here] at applied
          exact applied
      | @created c e _ checked free absent made same =>
          have here := store_served_of_absent absent
          have applied : r.Puts env name spec (.ok (r.store.served name).isNone, after) := by
            refine .applied (put_clear named api checked free absent putting) checked
              (fun present => absurd here present) ?_
            rw [same.store, Entry.stored, made.setsSpec, made.setsSource, made.setsListen]
          rw [here] at applied
          exact applied

theorem apply_applies (r : Registry) (serde : Serde) (env : Environment)
    (writeAtomic : String → String → Except String Unit) (name : String) (spec : VipSpec) :
    r.store.Applies serde env writeAtomic name spec (r.apply serde env writeAtomic name spec).1
      (r.apply serde env writeAtomic name spec).2.store := by
  unfold apply
  cases named : validName name with
  | error error => exact .refused (.name named)
  | ok _ =>
      dsimp only
      cases declared : r.fromConfigAt name with
      | true =>
          obtain ⟨stored, here, config⟩ := fromConfigAt_eq_true_iff.mp declared
          exact .refused (.config here config)
      | false =>
          rw [if_neg Bool.false_ne_true]
          have puts : r.Puts env name spec (r.put env name spec false) := put_puts named declared
          generalize r.put env name spec false = result at puts ⊢
          cases puts with
          | refused obstacle => exact .refused obstacle
          | halfway clear checked here unusable moves =>
              exact moves ▸ .halfway clear checked here unusable
          | @applied c after clear checked usable sets =>
              have saves := { after with pending := after.pending.erase name }.save_saves serde
                writeAtomic
              dsimp only
              generalize Registry.save _ serde writeAtomic = saving at saves ⊢
              rw [store_unpend, sets] at saves ⊢
              have applied := Store.Applies.applied clear checked usable saves
              cases saving with
              | ok _ => exact applied
              | error error => exact applied

theorem remove_removes (r : Registry) (serde : Serde)
    (writeAtomic : String → String → Except String Unit) (name : String) :
    r.store.Removes serde writeAtomic name (r.remove serde writeAtomic name).1
      (r.remove serde writeAtomic name).2.store := by
  unfold remove removeEntry
  cases present : r.vips[name]? with
  | none =>
      have unknown := store_served_of_absent present
      dsimp only
      by_cases waits : name ∈ r.pending
      · rw [if_pos waits]
        have saves := { r with pending := r.pending.erase name }.save_saves serde writeAtomic
        rw [store_unpend] at saves
        have pending : r.store.pending name ≠ none :=
          Option.isSome_iff_ne_none.mp (Std.ExtTreeMap.mem_iff_isSome_getElem?.mp waits)
        have forgotten := Store.Removes.forgotten unknown pending saves
        rw [← store_unpend] at forgotten
        exact forgotten
      · rw [if_neg waits]
        exact .absent unknown (Std.ExtTreeMap.getElem?_eq_none waits)
  | some e =>
      have here := store_served_of_getElem? present
      dsimp only
      cases declared : e.fromConfig with
      | true => exact .kept here declared
      | false =>
          have saves := ({ r with vips := r.vips.erase name }.dropEntry e).save_saves serde
            writeAtomic
          rw [store_drop] at saves
          have taken := Store.Removes.taken here declared saves
          rw [← store_drop (e := e)] at taken
          exact taken

/-- A task of an entry leaves the store alone. -/
theorem background_store (r : Registry) (name : String) (change : Entry → Entry)
    (keeps : ∀ e, (change e).stored = e.stored) : (r.background name change).store = r.store := by
  unfold background
  cases present : r.vips[name]? with
  | none => rfl
  | some e =>
      rw [(setEntry_sameBesides name (change e) rfl rfl rfl).store, keeps, Store.set,
        Function.update_eq_self_iff.mpr (store_served_of_getElem? present).symm]

end Registry

end StormLb.Vips
