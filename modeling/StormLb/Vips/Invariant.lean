import StormLb.Vips.Put

/-!
# The representation invariant of the registry

An entry keeps copies of what its spec says: the address it listens on, its
members, the checker's spec, and whether a VRRP instance runs.  Every operation
restores all of them, and touches no other entry.
-/

namespace StormLb.Vips

open StormLb.Net StormLb.Health

/-! ## Operations and their runs -/

/-- What happens to a registry: the four operations, a probe, a connection, a health round. -/
inductive Operation where
  | startConfig (env : Environment) (spec : VipSpec)
  | loadState (serde : Serde) (file : FileRead) (env : String → Environment)
  | apply (serde : Serde) (env : Environment) (writeAtomic : String → String → Except String Unit)
      (name : String) (spec : VipSpec)
  | remove (serde : Serde) (writeAtomic : String → String → Except String Unit) (name : String)
  | probed (name : String) (id : Nat) (healthy : Bool)
  | connected (name : String)
  | woken (name : String)

namespace Registry

/-- Change the pool and the checker's permit of one entry, as its tasks do. -/
def background (r : Registry) (name : String) (change : Entry → Entry) : Registry :=
  match r.vips[name]? with
  | some e => r.setEntry name (change e)
  | none => r

def run (r : Registry) : Operation → Registry
  | .startConfig env spec => (r.startConfig env spec).2
  | .loadState serde file env => (r.loadState serde file env).2
  | .apply serde env writeAtomic name spec => (r.apply serde env writeAtomic name spec).2
  | .remove serde writeAtomic name => (r.remove serde writeAtomic name).2
  | .probed name id healthy =>
      r.background name fun e => { e with pool := e.pool.setHealthy id healthy }
  | .connected name => r.background name fun e => { e with pool := e.pool.pick.2 }
  | .woken name =>
      r.background name fun e => { e with checker := { e.checker with wake := false } }

def runAll (r : Registry) (operations : List Operation) : Registry :=
  operations.foldl run r

end Registry

/-- The names an operation is about. -/
def Operation.Names : Operation → String → Prop
  | .startConfig .., name => name = configVip
  | .loadState serde file _, name =>
      ∃ text saved, file = .text text ∧ serde.fromStr text = .ok saved ∧ name ∈ saved
  | .apply _ _ _ named _, name => name = named
  | .remove _ _ named, name => name = named
  | .probed named _ _, name => name = named
  | .connected named, name => name = named
  | .woken named, name => name = named

/-- Both reads of the CA file within one `put` answer the same. -/
def Environment.Steady (env : Environment) : Prop :=
  ∀ spec, client env.first spec = client env.second spec

def Operation.Steady : Operation → Prop
  | .startConfig env _ => env.Steady
  | .loadState _ _ env => ∀ name, (env name).Steady
  | .apply _ env _ _ _ => env.Steady
  | _ => True

/-! ## The invariant -/

/-- An entry's copies are what its spec says. -/
structure Entry.Represents (e : Entry) : Prop where
  listen : e.spec.listenAddr = some e.listen
  members : ∃ addrs, e.spec.backends.mapM BackendSpec.socketAddr = some addrs ∧
    e.pool.addrs = addrs.eraseDups
  checker : e.checker.spec = e.spec.health
  vrrp : e.vrrp.isSome = e.spec.vrrp.isSome

structure Registry.Represents (r : Registry) : Prop where
  distinct : ∀ (name other : String) (e e' : Entry), r.vips[name]? = some e →
    r.vips[other]? = some e' → e.listen = e'.listen → name = other
  entries : ∀ (name : String) (e : Entry), r.vips[name]? = some e → e.Represents

theorem startVrrp_isSome {spec : VipSpec} {vip : Option Ipv4Addr} (id : Nat)
    (same : vip.isSome = spec.vrrp.isSome) : (startVrrp id spec vip).isSome = spec.vrrp.isSome := by
  unfold startVrrp
  cases wanted : spec.vrrp with
  | none => rfl
  | some v =>
      cases vip with
      | none => simp [wanted] at same
      | some v4 => rfl

theorem Entry.MadeFrom.represents {spec : VipSpec} {fromConfig : Bool} {c : Checked} {e : Entry}
    (made : Entry.MadeFrom spec fromConfig c e) (checked : check spec = .ok c) : e.Represents := by
  have checks := checks_of_check checked
  obtain ⟨id, started⟩ := made.setsVrrp
  exact
    { listen := by rw [made.setsSpec, made.setsListen, checks.listen]
      members := ⟨c.backends, by rw [made.setsSpec, checks.backends], by
        rw [made.setsMembers, Pool.new_addrs]⟩
      checker := by rw [made.setsChecker, made.setsSpec]
      vrrp := by rw [started, made.setsSpec, startVrrp_isSome id checks.vrrpVip] }

theorem Entry.ReplacedBy.represents {spec : VipSpec} {c : Checked} {e after : Entry}
    (replaces : e.ReplacedBy spec c after) (checked : check spec = .ok c)
    (before : e.Represents) : after.Represents := by
  have checks := checks_of_check checked
  have owned : after.vrrp.isSome = spec.vrrp.isSome := by
    have sets := replaces.setsVrrp
    split at sets
    · obtain ⟨id, started⟩ := sets
      rw [started, startVrrp_isSome id checks.vrrpVip]
    · rename_i unchanged
      have same : spec.vrrp = e.spec.vrrp := by
        by_contra differs
        exact unchanged (.inl differs)
      rw [sets, same, before.vrrp]
  exact
    { listen := by rw [replaces.setsSpec, replaces.setsListen, checks.listen]
      members := ⟨c.backends, by rw [replaces.setsSpec, checks.backends], by
        rw [replaces.setsMembers, Pool.setAddrs_addrs]⟩
      checker := by rw [replaces.setsChecker, replaces.setsSpec]
      vrrp := by rw [owned, replaces.setsSpec] }

namespace Registry

variable {r after : Registry} {name : String} {e : Entry}

theorem conflict_eq_none_iff {listen : SocketAddr} :
    r.conflict name listen = none ↔
      ∀ other e, r.vips[other]? = some e → e.listen = listen → other = name := by
  rw [conflict, Option.map_eq_none_iff, List.find?_eq_none]
  constructor
  · intro free other e present same
    have member := Std.ExtTreeMap.mem_toList_iff_getElem?_eq_some.mpr present
    simpa [same] using free _ member
  · rintro free ⟨other, e⟩ member
    have present := Std.ExtTreeMap.mem_toList_iff_getElem?_eq_some.mp member
    by_cases same : e.listen = listen
    · simp [free other e present same]
    · simp [same]

theorem new_represents (stateFile : Option String) : (Registry.new stateFile).Represents where
  distinct name other e e' present := by simp [Registry.new] at present
  entries name e present := by simp [Registry.new] at present

/-- What a name is mapped to after one entry was set. -/
theorem SameBesides.getElem? (same : r.SameBesides name e after) (other : String) :
    after.vips[other]? = if other = name then some e else r.vips[other]? := by
  rw [same.vips, Std.ExtTreeMap.getElem?_insert]
  by_cases here : other = name
  · subst here
    simp
  · have apart : compare name other ≠ .eq := fun equal =>
      here (Std.LawfulEqCmp.compare_eq_iff_eq.mp equal).symm
    rw [if_neg apart, if_neg here]

/-- Setting one entry that represents its spec, and listens where no other does. -/
theorem SameBesides.represents (same : r.SameBesides name e after) (represents : r.Represents)
    (entry : e.Represents)
    (free : ∀ other e', r.vips[other]? = some e' → e'.listen = e.listen → other = name) :
    after.Represents where
  distinct first second e₁ e₂ one two listens := by
    rw [same.getElem?] at one two
    split at one
    · rename_i atFirst
      cases one
      split at two
      · rename_i atSecond
        rw [atFirst, atSecond]
      · rw [atFirst, free second e₂ two listens.symm]
    · split at two
      · rename_i atSecond
        cases two
        rw [atSecond, free first e₁ one listens]
      · exact represents.distinct first second e₁ e₂ one two listens
  entries other e' present := by
    rw [same.getElem?] at present
    split at present
    · cases present
      exact entry
    · exact represents.entries other e' present

/-- A `put` that reads its CA file the same twice keeps the invariant. -/
theorem put_represents {env : Environment} (steady : env.Steady) (spec : VipSpec)
    (fromConfig : Bool) (represents : r.Represents) :
    (r.put env name spec fromConfig).2.Represents := by
  have outcome := r.put_outcome env name spec fromConfig
  generalize r.put env name spec fromConfig = result at outcome ⊢
  cases outcome with
  | refused error refuses => exact represents
  | halfway admits fails same =>
      obtain ⟨built, loads⟩ := admits.loads
      rw [← steady, loads] at fails
      cases fails
  | updated admits reloads replaces same =>
      have before := represents.entries _ _ admits.present
      refine same.represents represents (replaces.represents admits.checked before) ?_
      rw [replaces.setsListen]
      exact conflict_eq_none_iff.mp admits.free
  | created checked free absent made same =>
      refine same.represents represents (made.represents checked) ?_
      rw [made.setsListen]
      exact conflict_eq_none_iff.mp free

/-- A `put` touches one entry, and neither the pending specs nor the file's name. -/
theorem put_frame (r : Registry) (env : Environment) (name : String) (spec : VipSpec)
    (fromConfig : Bool) :
    (∀ other, other ≠ name → (r.put env name spec fromConfig).2.vips[other]? = r.vips[other]?) ∧
      (r.put env name spec fromConfig).2.pending = r.pending ∧
      (r.put env name spec fromConfig).2.stateFile = r.stateFile := by
  have outcome := r.put_outcome env name spec fromConfig
  generalize r.put env name spec fromConfig = result at outcome ⊢
  have besides : ∀ {e : Entry} {after : Registry}, r.SameBesides name e after →
      (∀ other, other ≠ name → after.vips[other]? = r.vips[other]?) ∧
        after.pending = r.pending ∧ after.stateFile = r.stateFile := by
    intro e after same
    refine ⟨fun other apart => ?_, same.pending, same.stateFile⟩
    rw [same.getElem?, if_neg apart]
  cases outcome with
  | refused error refuses => exact ⟨fun _ _ => rfl, rfl, rfl⟩
  | halfway _ _ same => exact besides same
  | updated _ _ _ same => exact besides same
  | created _ _ _ _ same => exact besides same

/-! ## Each operation -/

theorem loadOne_frame (env : String → Environment) (state : Nat × Registry)
    (vip : String × VipSpec) {other : String} (apart : other ≠ vip.1) :
    (loadOne env state vip).2.vips[other]? = state.2.vips[other]? := by
  have frame := (state.2.put_frame (env vip.1) vip.1 vip.2 false).1 other apart
  unfold loadOne
  split
  · rename_i put
    rwa [put] at frame
  · rename_i put
    rwa [put] at frame

theorem loadState_frame (serde : Serde) (file : FileRead) (env : String → Environment)
    {other : String} (apart : ¬ (Operation.loadState serde file env).Names other) :
    (r.loadState serde file env).2.vips[other]? = r.vips[other]? := by
  unfold loadState
  split
  · rfl
  · rfl
  · rfl
  · rename_i path text _
    split
    · rfl
    · rename_i saved parsed
      have kept : ∀ (vips : List (String × VipSpec)) (state : Nat × Registry),
          (∀ vip ∈ vips, other ≠ vip.1) →
            (vips.foldl (loadOne env) state).2.vips[other]? = state.2.vips[other]? := by
        intro vips
        induction vips with
        | nil => exact fun state _ => rfl
        | cons vip rest ih =>
            intro state apart
            rw [List.foldl_cons, ih _ fun vip member => apart vip (List.mem_cons_of_mem _ member)]
            exact loadOne_frame env state vip (apart vip List.mem_cons_self)
      refine kept saved.toList (0, r) fun vip member same => apart ?_
      have present := Std.ExtTreeMap.mem_toList_iff_getElem?_eq_some.mp member
      refine ⟨text, saved, rfl, parsed, ?_⟩
      rw [same]
      exact Std.ExtTreeMap.mem_iff_isSome_getElem?.mpr (by rw [present]; rfl)

/-- `apply` is refused before it changes anything, or is a `put` that ends in a save. -/
theorem apply_cases (r : Registry) (serde : Serde) (env : Environment)
    (writeAtomic : String → String → Except String Unit) (name : String) (spec : VipSpec) :
    (∃ error, r.apply serde env writeAtomic name spec = (.error error, r)) ∨
    (r.fromConfigAt name = false ∧
      (r.apply serde env writeAtomic name spec).2.vips = (r.put env name spec false).2.vips ∧
      (r.apply serde env writeAtomic name spec).2.stateFile =
        (r.put env name spec false).2.stateFile) := by
  unfold apply
  cases validName name with
  | error error => exact .inl ⟨error, rfl⟩
  | ok _ =>
      dsimp only
      cases configured : r.fromConfigAt name with
      | true => exact .inl ⟨_, rfl⟩
      | false =>
          refine .inr ⟨rfl, ?_⟩
          rw [if_neg Bool.false_ne_true]
          split
          · rename_i put
            rw [put]
            exact ⟨rfl, rfl⟩
          · rename_i put
            rw [put]
            exact ⟨rfl, rfl⟩

/-- `remove` takes at most the one entry away. -/
theorem remove_vips (r : Registry) (serde : Serde)
    (writeAtomic : String → String → Except String Unit) (name : String) :
    (r.remove serde writeAtomic name).2.vips = r.vips ∨
    (r.fromConfigAt name = false ∧
      (r.remove serde writeAtomic name).2.vips = r.vips.erase name) := by
  unfold remove removeEntry
  cases present : r.vips[name]? with
  | none =>
      dsimp only
      by_cases pends : name ∈ r.pending
      · rw [if_pos pends]
        exact .inl rfl
      · rw [if_neg pends]
        exact .inl rfl
  | some e =>
      dsimp only
      cases configured : e.fromConfig with
      | true => exact .inl rfl
      | false => exact .inr ⟨by rw [fromConfigAt, present]; exact configured, rfl⟩

theorem background_frame (change : Entry → Entry) {other : String} (apart : other ≠ name) :
    (r.background name change).vips[other]? = r.vips[other]? := by
  unfold background
  split
  · rw [(setEntry_sameBesides name _ rfl rfl rfl).getElem?, if_neg apart]
  · rfl

theorem getElem?_erase_of_ne {α : Type} {vips : Std.ExtTreeMap String α} {other : String}
    (apart : other ≠ name) : (vips.erase name)[other]? = vips[other]? := by
  rw [Std.ExtTreeMap.getElem?_erase, if_neg]
  exact fun equal => apart (Std.LawfulEqCmp.compare_eq_iff_eq.mp equal).symm

/-- No operation changes the entry of a name it is not about. -/
theorem run_frame (r : Registry) (operation : Operation) {other : String}
    (apart : ¬ operation.Names other) : (r.run operation).vips[other]? = r.vips[other]? := by
  cases operation with
  | startConfig env spec => exact (r.put_frame env configVip spec true).1 other apart
  | loadState serde file env => exact loadState_frame serde file env apart
  | apply serde env writeAtomic name spec =>
      rcases r.apply_cases serde env writeAtomic name spec with ⟨error, refused⟩ | ⟨_, same, _⟩
      · rw [run, refused]
      · rw [run, same]
        exact (r.put_frame env name spec false).1 other apart
  | remove serde writeAtomic name =>
      rcases r.remove_vips serde writeAtomic name with same | ⟨_, erased⟩
      · rw [run, same]
      · rw [run, erased, getElem?_erase_of_ne apart]
  | probed name id healthy => exact background_frame _ apart
  | connected name => exact background_frame _ apart
  | woken name => exact background_frame _ apart

end Registry

/-! ## Keeping a property through a run -/

/-- Every `put` of the operation is answered as given. -/
def Operation.Puts (answered : Environment → Prop) : Operation → Prop
  | .startConfig env _ => answered env
  | .loadState _ _ env => ∀ name, answered (env name)
  | .apply _ env _ _ _ => answered env
  | _ => True

theorem Operation.Steady.puts {operation : Operation} (steady : operation.Steady) :
    operation.Puts Environment.Steady := by
  cases operation <;> exact steady

theorem Operation.puts_of_forall {answered : Environment → Prop} (always : ∀ env, answered env)
    (operation : Operation) : operation.Puts answered := by
  cases operation with
  | startConfig env spec => exact always env
  | loadState serde file env => exact fun name => always (env name)
  | apply serde env writeAtomic name spec => exact always env
  | _ => trivial

/-- What the tasks of an entry leave of it as it was. -/
structure Entry.Idles (e after : Entry) : Prop where
  spec : after.spec = e.spec
  fromConfig : after.fromConfig = e.fromConfig
  listen : after.listen = e.listen
  addrs : after.pool.addrs = e.pool.addrs
  checker : after.checker.spec = e.checker.spec
  vrrp : after.vrrp = e.vrrp

namespace Registry

/-- A property of the entries that a `put`, the end of an entry and its tasks keep. -/
structure Kept (answered : Environment → Prop) (holds : Registry → Prop) : Prop where
  congr : ∀ {r after : Registry}, after.vips = r.vips → holds r → holds after
  put : ∀ {r : Registry} {env : Environment} (name : String) (spec : VipSpec) (fromConfig : Bool),
    answered env → holds r → holds (r.put env name spec fromConfig).2
  erase : ∀ {r after : Registry} {name : String}, after.vips = r.vips.erase name → holds r →
    holds after
  idle : ∀ {r : Registry} {name : String} {e after : Entry}, r.vips[name]? = some e →
    e.Idles after → holds r → holds (r.setEntry name after)

namespace Kept

variable {answered : Environment → Prop} {holds : Registry → Prop} {r : Registry}

theorem loadOne (kept : Kept answered holds) {env : String → Environment}
    (every : ∀ name, answered (env name)) (state : Nat × Registry) (vip : String × VipSpec)
    (before : holds state.2) : holds (Registry.loadOne env state vip).2 := by
  have after := kept.put vip.1 vip.2 false (every vip.1) before
  unfold Registry.loadOne
  split
  · rename_i put
    rwa [put] at after
  · rename_i error loaded put
    rw [put] at after
    exact kept.congr (r := loaded) rfl after

theorem loadState (kept : Kept answered holds) {env : String → Environment}
    (every : ∀ name, answered (env name)) (serde : Serde) (file : FileRead) (before : holds r) :
    holds (r.loadState serde file env).2 := by
  unfold Registry.loadState
  split
  · exact before
  · exact before
  · exact before
  · split
    · exact before
    · rename_i saved _
      have loaded : ∀ (vips : List (String × VipSpec)) (state : Nat × Registry),
          holds state.2 → holds (vips.foldl (Registry.loadOne env) state).2 := by
        intro vips
        induction vips with
        | nil => exact fun state kept => kept
        | cons vip rest ih => exact fun state before => ih _ (kept.loadOne every state vip before)
      exact loaded saved.toList (0, r) before

theorem background (kept : Kept answered holds) {name : String} {change : Entry → Entry}
    (idles : ∀ e : Entry, e.Idles (change e)) (before : holds r) :
    holds (r.background name change) := by
  unfold Registry.background
  split
  · rename_i e present
    exact kept.idle present (idles e) before
  · exact before

/-- One operation. -/
theorem run (kept : Kept answered holds) {operation : Operation}
    (puts : operation.Puts answered) (before : holds r) : holds (r.run operation) := by
  cases operation with
  | startConfig env spec => exact kept.put configVip spec true puts before
  | loadState serde file env => exact kept.loadState puts serde file before
  | apply serde env writeAtomic name spec =>
      rcases r.apply_cases serde env writeAtomic name spec with ⟨error, refused⟩ | ⟨_, same, _⟩
      · rw [Registry.run, refused]
        exact before
      · exact kept.congr same (kept.put name spec false puts before)
  | remove serde writeAtomic name =>
      rcases r.remove_vips serde writeAtomic name with same | ⟨_, erased⟩
      · exact kept.congr same before
      · exact kept.erase erased before
  | probed name id healthy =>
      exact kept.background (fun e => ⟨rfl, rfl, rfl, Pool.setHealthy_addrs .., rfl, rfl⟩) before
  | connected name =>
      exact kept.background (fun e => ⟨rfl, rfl, rfl, Pool.pick_addrs .., rfl, rfl⟩) before
  | woken name => exact kept.background (fun e => ⟨rfl, rfl, rfl, rfl, rfl, rfl⟩) before

/-- The rule of runs. -/
theorem runAll (kept : Kept answered holds) {operations : List Operation}
    (puts : ∀ operation ∈ operations, operation.Puts answered) (before : holds r) :
    holds (r.runAll operations) := by
  induction operations generalizing r with
  | nil => exact before
  | cons operation rest ih =>
      refine ih (fun later member => puts later (List.mem_cons_of_mem _ member)) ?_
      exact kept.run (puts operation List.mem_cons_self) before

end Kept

/-- Operations whose CA files read the same twice keep the representation invariant. -/
theorem kept_represents : Kept Environment.Steady Represents where
  congr same represents :=
    { distinct := by
        rw [same]
        exact represents.distinct
      entries := by
        rw [same]
        exact represents.entries }
  put name spec fromConfig steady represents := put_represents steady spec fromConfig represents
  erase {r after name} erased represents := by
    have fewer : ∀ (other : String) (e : Entry), after.vips[other]? = some e →
        r.vips[other]? = some e := by
      intro other e present
      rw [erased, Std.ExtTreeMap.getElem?_erase] at present
      split at present
      · cases present
      · exact present
    exact
      { distinct := fun first second e₁ e₂ one two =>
          represents.distinct first second e₁ e₂ (fewer _ _ one) (fewer _ _ two)
        entries := fun other e present => represents.entries other e (fewer _ _ present) }
  idle {r name e after} present idles represents := by
    have before := represents.entries name e present
    refine (setEntry_sameBesides name after rfl rfl rfl).represents represents ?_ ?_
    · exact
        { listen := by rw [idles.spec, idles.listen, before.listen]
          members := by
            rw [idles.spec, idles.addrs]
            exact before.members
          checker := by rw [idles.checker, idles.spec, before.checker]
          vrrp := by rw [idles.vrrp, idles.spec, before.vrrp] }
    · intro other e' there same
      exact represents.distinct other name e' e there present (same.trans idles.listen)

/--
In every registry reached by operations each of whose `put`s reads its CA file
the same twice, the entries represent their specs, and a further operation
changes no entry but those it names.
-/
theorem runAll_represents (stateFile : Option String) (operations : List Operation)
    (steady : ∀ operation ∈ operations, operation.Steady) :
    ((new stateFile).runAll operations).Represents ∧
      ∀ (operation : Operation) (other : String), ¬ operation.Names other →
        (((new stateFile).runAll operations).run operation).vips[other]? =
          ((new stateFile).runAll operations).vips[other]? := by
  refine ⟨?_, fun operation other apart => run_frame _ operation apart⟩
  exact kept_represents.runAll (fun operation member => (steady operation member).puts)
    (new_represents stateFile)

end Registry

/-- A node without CA files on which every address is free. -/
def freeNode : Environment where
  first := ⟨fun _ => .error "No such file or directory (os error 2)", fun _ => .ok [], fun _ => .ok ()⟩
  second := ⟨fun _ => .error "No such file or directory (os error 2)", fun _ => .ok [], fun _ => .ok ()⟩
  bind := fun _ => .ok ()

/-- Two apiservers, one of them named twice. -/
def apiservers : VipSpec where
  address := "192.168.8.50"
  port := 6443
  bind := some "0.0.0.0"
  backends := [⟨"192.168.8.98", 6443⟩, ⟨"192.168.8.99", 6443⟩, ⟨"192.168.8.98", 6443⟩]

theorem runAll_represents_apiservers :
    ((Registry.new none).runAll [.startConfig freeNode apiservers]).Represents ∧
      ∀ (operation : Operation) (other : String), ¬ operation.Names other →
        (((Registry.new none).runAll [.startConfig freeNode apiservers]).run operation).vips[other]? =
          ((Registry.new none).runAll [.startConfig freeNode apiservers]).vips[other]? :=
  Registry.runAll_represents none [.startConfig freeNode apiservers]
    (List.forall_mem_singleton.mpr fun _ => rfl)

end StormLb.Vips
