import StormLb.Vips.Refusal

/-!
# The VIP of the config file

`apply` and `remove` refuse to touch the VIP that `start_config` started.
`load_state` does not look: a VIP saved under the name `default` is put over it.
-/

namespace StormLb.Vips

open StormLb.Net StormLb.Health

/-- The entry of the config VIP: what its spec says, and the VRRP instance started for it. -/
structure Entry.IsConfig (e : Entry) (spec : VipSpec) (vrrp : Option Handle) : Prop where
  setsSpec : e.spec = spec
  source : e.fromConfig = true
  listen : spec.listenAddr = some e.listen
  members : ∃ addrs, spec.backends.mapM BackendSpec.socketAddr = some addrs ∧
    e.pool.addrs = addrs.eraseDups
  checker : e.checker.spec = spec.health
  started : e.vrrp = vrrp

/-- What the spec checks to is what the entry already is. -/
theorem Entry.IsConfig.copies {e : Entry} {spec : VipSpec} {vrrp : Option Handle} {c : Checked}
    (config : e.IsConfig spec vrrp) (checks : Checks spec c) :
    c.listen = e.listen ∧ c.backends.eraseDups = e.pool.addrs := by
  obtain ⟨addrs, parsed, members⟩ := config.members
  obtain rfl := Option.some.inj (checks.backends.symm.trans parsed)
  exact ⟨Option.some.inj (checks.listen.symm.trans config.listen), members.symm⟩

namespace Registry

def KeepsConfig (r : Registry) (spec : VipSpec) (vrrp : Option Handle) : Prop :=
  ∃ e : Entry, r.vips[configVip]? = some e ∧ e.IsConfig spec vrrp

/--
A `put` over an entry changes nothing: a check refuses it, or the second read
of the CA file does when there is nothing to undo.
-/
def Refuses (r : Registry) (env : Environment) (name : String) (spec : VipSpec) : Prop :=
  ∀ c e, r.Admits env name spec c e → (∃ message, client env.second spec.health = .error message) ∧
    c.listen = e.listen ∧ c.backends.eraseDups = e.pool.addrs

/-- No second start, and no saved `default` but the config VIP itself or a refused one. -/
def SparesConfig (spec : VipSpec) (r : Registry) : Operation → Prop
  | .startConfig .. => False
  | .loadState serde (.text text) env => ∀ saved, serde.fromStr text = .ok saved →
      ∀ before other later, saved.toList = before ++ (configVip, other) :: later →
        other = spec ∨ (before.foldl (loadOne env) (0, r)).2.Refuses (env configVip) configVip other
  | _ => True

/-- Every operation meets the condition in the registry it finds. -/
def AllMeet (condition : Registry → Operation → Prop) : Registry → List Operation → Prop
  | _, [] => True
  | r, operation :: rest => condition r operation ∧ AllMeet condition (r.run operation) rest

variable {r after : Registry} {env : Environment} {spec : VipSpec} {vrrp : Option Handle}

theorem halfway_eq_self {e : Entry} {c : Checked} (id : Nat) (listen : c.listen = e.listen)
    (addrs : c.backends.eraseDups = e.pool.addrs) : e.halfway id c = e := by
  have kept := (Pool.setAddrs_eq_self_iff e.pool c.backends).mpr addrs
  simp [Entry.halfway, Entry.moved, listen, kept]

/-- An entry that is not touched, or is replaced by its own spec, stays the config VIP. -/
theorem put_keepsConfig {other : VipSpec}
    (spares : other = spec ∨ r.Refuses env configVip other) (keeps : r.KeepsConfig spec vrrp) :
    (r.put env configVip other false).2.KeepsConfig spec vrrp := by
  obtain ⟨e, present, config⟩ := keeps
  have outcome := r.put_outcome env configVip other false
  generalize r.put env configVip other false = result at outcome ⊢
  cases outcome with
  | refused error refuses => exact ⟨e, present, config⟩
  | @halfway c e' message after admits fails same =>
      obtain rfl := Option.some.inj (present.symm.trans admits.present)
      have nothing : c.listen = e.listen ∧ c.backends.eraseDups = e.pool.addrs := by
        rcases spares with rfl | refuses
        · exact config.copies (checks_of_check admits.checked)
        · exact (refuses c e admits).2
      refine ⟨_, by rw [same.getElem?, if_pos rfl], ?_⟩
      rw [halfway_eq_self r.started nothing.1 nothing.2]
      exact config
  | @updated c e' replaced after admits reloads replaces same =>
      obtain rfl := Option.some.inj (present.symm.trans admits.present)
      refine ⟨replaced, by rw [same.getElem?, if_pos rfl], ?_⟩
      rcases spares with rfl | refuses
      · have checks := checks_of_check admits.checked
        have unchanged := replaces.setsVrrp
        rw [config.setsSpec, if_neg (by simp)] at unchanged
        exact
          { setsSpec := replaces.setsSpec
            source := replaces.keepsSource.trans config.source
            listen := by rw [replaces.setsListen, checks.listen]
            members := ⟨c.backends, checks.backends, by
              rw [replaces.setsMembers, Pool.setAddrs_addrs]⟩
            checker := replaces.setsChecker
            started := unchanged.trans config.started }
      · obtain ⟨message, fails⟩ := (refuses c e admits).1
        obtain ⟨built, loads⟩ := reloads
        rw [fails] at loads
        cases loads
  | created checked free absent made same =>
      rw [present] at absent
      cases absent

/-- An operation on another name keeps the config VIP. -/
theorem keepsConfig_of_frame (same : after.vips[configVip]? = r.vips[configVip]?)
    (keeps : r.KeepsConfig spec vrrp) : after.KeepsConfig spec vrrp := by
  obtain ⟨e, present, config⟩ := keeps
  exact ⟨e, by rw [same, present], config⟩

/-- The config VIP is seen as such by `apply` and `remove`. -/
theorem KeepsConfig.fromConfigAt (keeps : r.KeepsConfig spec vrrp) :
    r.fromConfigAt configVip = true := by
  obtain ⟨e, present, config⟩ := keeps
  rw [Registry.fromConfigAt, present]
  exact config.source

theorem loadOne_keepsConfig {env : String → Environment} {state : Nat × Registry}
    {vip : String × VipSpec}
    (spares : vip.1 = configVip → vip.2 = spec ∨ state.2.Refuses (env configVip) configVip vip.2)
    (keeps : state.2.KeepsConfig spec vrrp) :
    (loadOne env state vip).2.KeepsConfig spec vrrp := by
  obtain ⟨name, other⟩ := vip
  by_cases here : name = configVip
  · subst here
    have kept := put_keepsConfig (spares rfl) keeps
    unfold loadOne
    split
    · rename_i put
      rw [put] at kept
      exact kept
    · rename_i error after put
      rw [put] at kept
      exact keepsConfig_of_frame (r := after) rfl kept
  · exact keepsConfig_of_frame (loadOne_frame env state (name, other) (Ne.symm here)) keeps

theorem loadState_keepsConfig {serde : Serde} {file : FileRead} {env : String → Environment}
    (spares : SparesConfig spec r (.loadState serde file env)) (keeps : r.KeepsConfig spec vrrp) :
    (r.loadState serde file env).2.KeepsConfig spec vrrp := by
  unfold loadState
  split
  · exact keeps
  · exact keeps
  · exact keeps
  · split
    · exact keeps
    · rename_i saved parsed
      -- The invariant of the loop over the saved VIPs, those before `later` already loaded.
      have loaded : ∀ later before, saved.toList = before ++ later →
          (before.foldl (loadOne env) (0, r)).2.KeepsConfig spec vrrp →
            (later.foldl (loadOne env) (before.foldl (loadOne env) (0, r))).2.KeepsConfig
              spec vrrp := by
        intro later
        induction later with
        | nil => exact fun _ _ kept => kept
        | cons vip rest ih =>
            intro before split kept
            have next := ih (before ++ [vip]) (by simp [split])
            rw [List.foldl_append] at next
            refine next (loadOne_keepsConfig (fun here => ?_) kept)
            refine spares saved parsed before vip.2 rest ?_
            rw [split, ← here]
      exact loaded saved.toList [] rfl keeps

theorem background_keepsConfig {name : String} {change : Entry → Entry}
    (config : ∀ e : Entry, e.IsConfig spec vrrp → (change e).IsConfig spec vrrp)
    (keeps : r.KeepsConfig spec vrrp) : (r.background name change).KeepsConfig spec vrrp := by
  by_cases here : configVip = name
  · subst here
    obtain ⟨e, present, isConfig⟩ := keeps
    refine ⟨change e, ?_, config e isConfig⟩
    simp [background, present, setEntry]
  · exact keepsConfig_of_frame (background_frame change here) keeps

/-- Every operation that meets the condition keeps the config VIP. -/
theorem run_keepsConfig {operation : Operation} (spares : SparesConfig spec r operation)
    (keeps : r.KeepsConfig spec vrrp) : (r.run operation).KeepsConfig spec vrrp := by
  have other : ∀ {name : String}, r.fromConfigAt name = false → configVip ≠ name := by
    intro name free same
    rw [← same, keeps.fromConfigAt] at free
    cases free
  cases operation with
  | startConfig env spec => exact spares.elim
  | loadState serde file env => exact loadState_keepsConfig spares keeps
  | apply serde env writeAtomic name named =>
      rcases r.apply_cases serde env writeAtomic name named with ⟨error, refused⟩ | ⟨free, same, _⟩
      · rw [run, refused]
        exact keeps
      · refine keepsConfig_of_frame ?_ keeps
        rw [run, same]
        exact (r.put_frame env name named false).1 configVip (other free)
  | remove serde writeAtomic name =>
      rcases r.remove_vips serde writeAtomic name with same | ⟨free, erased⟩
      · exact keepsConfig_of_frame (by rw [run, same]) keeps
      · refine keepsConfig_of_frame ?_ keeps
        rw [run, erased, getElem?_erase_of_ne (other free)]
  | probed name id healthy =>
      exact background_keepsConfig
        (fun e config => { config with members := by simpa using config.members }) keeps
  | connected name =>
      exact background_keepsConfig
        (fun e config => { config with members := by simpa using config.members }) keeps
  | woken name => exact background_keepsConfig (fun e config => { config with }) keeps

/-- An accepted `start_config` makes the config VIP. -/
theorem startConfig_keepsConfig {stateFile : Option String} {created : Bool}
    (started : (new stateFile).startConfig env spec = (.ok created, r)) :
    ∃ e : Entry, r.vips[configVip]? = some e ∧ r.KeepsConfig spec e.vrrp := by
  have outcome := (new stateFile).put_outcome env configVip spec true
  rw [show (new stateFile).put env configVip spec true = (.ok created, r) from started] at outcome
  cases outcome with
  | updated admits reloads replaces same =>
      have present := admits.present
      simp [Registry.new] at present
  | @created c e after checked free absent made same =>
      have checks := checks_of_check checked
      have present : r.vips[configVip]? = some e := by rw [same.getElem?, if_pos rfl]
      refine ⟨e, present, e, present, ?_⟩
      exact
        { setsSpec := made.setsSpec
          source := made.setsSource
          listen := by rw [made.setsListen, checks.listen]
          members := ⟨c.backends, checks.backends, by rw [made.setsMembers, Pool.new_addrs]⟩
          checker := made.setsChecker
          started := rfl }

/--
The entry that an accepted `start_config` made is there with its spec in every
registry reached by operations that meet the condition.
-/
theorem runAll_keepsConfig {stateFile : Option String} {created : Bool}
    (started : (new stateFile).startConfig env spec = (.ok created, r))
    (operations : List Operation) (spares : AllMeet (SparesConfig spec) r operations) :
    ∃ e : Entry, r.vips[configVip]? = some e ∧
      (r.runAll operations).KeepsConfig spec e.vrrp := by
  obtain ⟨e, present, keeps⟩ := startConfig_keepsConfig started
  refine ⟨e, present, ?_⟩
  clear started present
  induction operations generalizing r with
  | nil => exact keeps
  | cons operation rest ih => exact ih spares.2 (run_keepsConfig spares.1 keeps)

end Registry

/-! ## A saved VIP of the same name -/

/-- The state file of a time when the config had no `[vip]` and an API VIP was named `default`. -/
def savedDefault : String :=
  "\x7b\"vips\":\x7b\"default\":\x7b\"address\":\"192.168.8.60\",\"bind\":\"0.0.0.0\",\"port\":6443\x7d\x7d\x7d"

/-- The VIP saved in it, on the listener of the config VIP. -/
def savedSpec : VipSpec where
  address := "192.168.8.60"
  port := 6443
  bind := some "0.0.0.0"

/-- The state file when the API VIP was named `k8s`, on a port of its own. -/
def savedK8s : String :=
  "\x7b\"vips\":\x7b\"k8s\":\x7b\"address\":\"192.168.8.60\",\"port\":7443\x7d\x7d\x7d"

def k8sSpec : VipSpec where
  address := "192.168.8.60"
  port := 7443

/-- `serde_json` on these files. -/
def readsSaved : Serde where
  toStringPretty := fun _ => savedDefault
  fromStr := fun text =>
    if text = savedDefault then .ok ((∅ : State).insert configVip savedSpec)
    else if text = savedK8s then .ok ((∅ : State).insert "k8s" k8sSpec)
    else .error "expected value at line 1 column 1"

/-- The node while the config VIP listens on port 6443 of every address. -/
def listeningNode : Environment :=
  { freeNode with
    bind := fun listen =>
      if listen.port = 6443 then .error "Address already in use (os error 98)" else .ok () }

/-- The registry right after `start_config`. -/
def configured : Registry :=
  ((Registry.new (some "/data/stormlb/vips.json")).startConfig freeNode apiservers).2

theorem startConfig_configured :
    (Registry.new (some "/data/stormlb/vips.json")).startConfig freeNode apiservers =
      (.ok true, configured) :=
  Prod.ext (by decide +kernel) rfl

/-- Loading that state file replaces the VIP of the config file. -/
theorem loadState_replaces_config :
    ¬ ∀ (stateFile : Option String) (env : Environment) (spec : VipSpec) (created : Bool)
      (r : Registry), (Registry.new stateFile).startConfig env spec = (.ok created, r) →
      ∀ operations : List Operation,
        (∀ env spec, Operation.startConfig env spec ∉ operations) →
        ∃ e : Entry, r.vips[configVip]? = some e ∧ (r.runAll operations).KeepsConfig spec e.vrrp := by
  intro readOnly
  obtain ⟨_, _, e, present, config⟩ := readOnly _ _ _ _ _ startConfig_configured
    [.loadState readsSaved (.text savedDefault) fun _ => listeningNode] (by simp)
  have replaced : ((configured.runAll
      [.loadState readsSaved (.text savedDefault) fun _ => listeningNode]).vips[configVip]?).map
        Entry.spec = some savedSpec := by
    decide +kernel
  rw [present, Option.map_some, config.setsSpec] at replaced
  exact absurd replaced (by decide)

/-- The file with `k8s` in it has no other VIP. -/
theorem spares_savedK8s :
    Registry.SparesConfig apiservers configured
      (.loadState readsSaved (.text savedK8s) fun _ => listeningNode) := by
  intro saved read before other later split
  have reads : readsSaved.fromStr savedK8s = .ok ((∅ : State).insert "k8s" k8sSpec) := by
    decide +kernel
  obtain rfl := Except.ok.inj (reads.symm.trans read)
  have listed : ((∅ : State).insert "k8s" k8sSpec).toList = [("k8s", k8sSpec)] := by
    decide +kernel
  have member : (configVip, other) ∈ [("k8s", k8sSpec)] := by
    rw [← listed, split]
    exact List.mem_append_right before List.mem_cons_self
  have named : configVip = "k8s" := congrArg Prod.fst (List.mem_singleton.mp member)
  exact absurd named (by decide)

/-- Loading the file with `k8s` in it, and then a refused PUT of `default`, keep the config VIP. -/
theorem runAll_keepsConfig_k8s :
    ∃ e : Entry, configured.vips[configVip]? = some e ∧
      (configured.runAll
        [.loadState readsSaved (.text savedK8s) fun _ => listeningNode,
          .apply readsSaved listeningNode (fun _ _ => .ok ()) configVip savedSpec]).KeepsConfig
        apiservers e.vrrp :=
  Registry.runAll_keepsConfig startConfig_configured _ ⟨spares_savedK8s, trivial, trivial⟩

end StormLb.Vips
