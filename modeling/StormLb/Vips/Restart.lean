import StormLb.Vips.StateFile

/-!
# Serving again after a restart

A restart starts the saved VIPs in the order of their names, and of two with one
listener the first.  A VIP that is served therefore serves again exactly when no
saved VIP with an earlier name takes its listener.
-/

namespace StormLb.Vips

open StormLb.Net StormLb.Health

/-! ## Which saved VIPs start -/

namespace Registry

/-- Some VIP listens there. -/
def Listens (r : Registry) (listen : SocketAddr) : Prop :=
  ∃ (name : String) (e : Entry), r.vips[name]? = some e ∧ e.listen = listen

/--
A node on which the saved VIPs are loaded: every CA file loads, and a bind fails
only where a VIP that was started before listens.
-/
structure Hosts (env : String → Environment) (vips : List (String × VipSpec)) (r : Registry) :
    Prop where
  loads : ∀ vip ∈ vips, ∃ c, client (env vip.1).first vip.2.health = .ok c
  binds : ∀ before vip after, vips = before ++ vip :: after → ∀ listen error,
    (env vip.1).bind listen = .error error → (before.foldl (loadStep env) r).Listens listen

theorem Hosts.rest {env : String → Environment} {vip : String × VipSpec}
    {rest : List (String × VipSpec)} {r : Registry} (hosts : Hosts env (vip :: rest) r) :
    Hosts env rest (r.loadStep env vip) where
  loads later member := hosts.loads later (List.mem_cons_of_mem _ member)
  binds before later after split listen error taken :=
    hosts.binds (vip :: before) later after (by rw [split]; rfl) listen error taken

theorem Hosts.before {env : String → Environment} {before later : List (String × VipSpec)}
    {r : Registry} (hosts : Hosts env (before ++ later) r) : Hosts env before r where
  loads vip member := hosts.loads vip (List.mem_append_left _ member)
  binds first vip after split :=
    hosts.binds first vip (after ++ later) (by rw [split, List.append_assoc]; rfl)

/-- A VIP that starts when it is loaded. -/
structure Starts (r : Registry) (vip : String × VipSpec) (c : Checked) : Prop where
  checked : check vip.2 = .ok c
  free : ¬ r.Listens c.listen

/-- Nobody listens where a VIP that is not served has no conflict. -/
theorem not_listens_iff {r : Registry} {name : String} {listen : SocketAddr}
    (absent : r.vips[name]? = none) : ¬ r.Listens listen ↔ r.conflict name listen = none := by
  rw [conflict_eq_none_iff]
  constructor
  · intro free other e present same
    exact absurd ⟨other, e, present, same⟩ free
  · rintro free ⟨other, e, present, same⟩
    rw [free other e present same, absent] at present
    cases present

/-- Where it can start, it is made. -/
theorem put_of_starts {env : Environment} {r : Registry} {name : String} {spec : VipSpec}
    {c : Checked} (starts : r.Starts (name, spec) c) (absent : r.vips[name]? = none)
    (loads : ∃ built, client env.first spec.health = .ok built)
    (binds : ∀ listen error, env.bind listen = .error error → r.Listens listen) :
    ∃ after, r.put env name spec false = (.ok true, after) := by
  obtain ⟨built, loads⟩ := loads
  have bound : Vips.bind env c.listen = .ok () := by
    unfold Vips.bind
    cases taken : env.bind c.listen with
    | error error => exact absurd (binds c.listen error taken) starts.free
    | ok _ => rfl
  have made : Checker.new env.first spec.health =
      .ok { spec := spec.health, client := built, wake := false } := by
    rw [Checker.new, loads]
    rfl
  have checked : check spec = .ok c := starts.checked
  have free : r.conflict name c.listen = none := (not_listens_iff absent).mp starts.free
  unfold put
  simp only [checked, free, absent, create, made, health, bound]
  exact ⟨_, rfl⟩

/-- A saved VIP with a name of its own starts where nobody listens, or changes nothing that is served. -/
theorem loadStep_cases {env : String → Environment} {r : Registry} {vip : String × VipSpec}
    (absent : r.vips[vip.1]? = none)
    (loads : ∃ c, client (env vip.1).first vip.2.health = .ok c)
    (binds : ∀ listen error, (env vip.1).bind listen = .error error → r.Listens listen) :
    (∃ c e, r.Starts vip c ∧ (r.loadStep env vip).vips = r.vips.insert vip.1 e ∧
      Entry.MadeFrom vip.2 false c e) ∨
    ((∀ c, ¬ r.Starts vip c) ∧ (r.loadStep env vip).vips = r.vips) := by
  have outcome := r.put_outcome (env vip.1) vip.1 vip.2 false
  unfold loadStep loadOne
  cases put : r.put (env vip.1) vip.1 vip.2 false with
  | mk result after =>
      rw [put] at outcome
      cases outcome with
      | refused error _ =>
          refine .inr ⟨fun c starts => ?_, rfl⟩
          obtain ⟨_, made⟩ := put_of_starts starts absent loads binds
          cases put.symm.trans made
      | halfway admits _ _ => cases absent.symm.trans admits.present
      | updated admits _ _ _ => cases absent.symm.trans admits.present
      | created checked free _ made same =>
          exact .inl ⟨_, _, ⟨checked, (not_listens_iff absent).mpr free⟩, same.vips, made⟩

/-- The VIP is served, with this spec and not from the config. -/
def Serves (r : Registry) (name : String) (spec : VipSpec) : Prop :=
  ∃ e, r.vips[name]? = some e ∧ e.fromConfig = false ∧ e.spec = spec

theorem Listens.congr {r after : Registry} (same : after.vips = r.vips) {listen : SocketAddr} :
    after.Listens listen ↔ r.Listens listen := by
  rw [Listens, Listens, same]

/-- Setting an entry where there was none adds its listener. -/
theorem listens_insert {r after : Registry} {name : String} {e : Entry}
    (same : after.vips = r.vips.insert name e) (absent : r.vips[name]? = none)
    {listen : SocketAddr} : after.Listens listen ↔ r.Listens listen ∨ e.listen = listen := by
  have found (other : String) :
      after.vips[other]? = if other = name then some e else r.vips[other]? := by
    rw [same]
    exact (setEntry_sameBesides (r := r) name e rfl rfl rfl).getElem? other
  constructor
  · rintro ⟨other, e', present, there⟩
    rw [found] at present
    split at present
    · cases present
      exact .inr there
    · exact .inl ⟨other, e', present, there⟩
  · rintro (⟨other, e', present, there⟩ | there)
    · refine ⟨other, e', ?_, there⟩
      rw [found, if_neg, present]
      rintro rfl
      cases absent.symm.trans present
    · exact ⟨name, e, by rw [found, if_pos rfl], there⟩

section

variable {env : String → Environment} {r : Registry} {listen : SocketAddr}

theorem loadStep_listens {vip : String × VipSpec} (absent : r.vips[vip.1]? = none)
    (loads : ∃ c, client (env vip.1).first vip.2.health = .ok c)
    (binds : ∀ listen error, (env vip.1).bind listen = .error error → r.Listens listen) :
    (r.loadStep env vip).Listens listen ↔
      r.Listens listen ∨ ∃ c, check vip.2 = .ok c ∧ c.listen = listen := by
  rcases loadStep_cases absent loads binds with ⟨c, e, starts, same, made⟩ | ⟨refused, same⟩
  · rw [listens_insert same absent, made.setsListen]
    refine or_congr_right ⟨fun there => ⟨c, starts.checked, there⟩, ?_⟩
    rintro ⟨c', checked, there⟩
    cases starts.checked.symm.trans checked
    exact there
  · rw [Listens.congr same]
    refine ⟨.inl, ?_⟩
    rintro (there | ⟨c, checked, rfl⟩)
    · exact there
    · by_contra free
      exact refused c ⟨checked, free⟩

/-- Somebody listens where a listed VIP with a valid spec does. -/
theorem foldl_loadStep_listens {vips : List (String × VipSpec)} (hosts : Hosts env vips r)
    (distinct : vips.Pairwise fun first second => first.1 ≠ second.1)
    (absent : ∀ vip ∈ vips, r.vips[vip.1]? = none) :
    (vips.foldl (loadStep env) r).Listens listen ↔
      r.Listens listen ∨ ∃ vip ∈ vips, ∃ c, check vip.2 = .ok c ∧ c.listen = listen := by
  induction vips generalizing r with
  | nil => simp
  | cons vip rest ih =>
      obtain ⟨apart, distinct⟩ := List.pairwise_cons.mp distinct
      have absent' : ∀ later ∈ rest, (r.loadStep env vip).vips[later.1]? = none := by
        intro later member
        rw [(r.loadStep_frame env (apart later member).symm).1]
        exact absent later (List.mem_cons_of_mem _ member)
      rw [List.foldl_cons, ih hosts.rest distinct absent',
        loadStep_listens (absent vip List.mem_cons_self) (hosts.loads vip List.mem_cons_self)
          (hosts.binds [] vip rest rfl)]
      simp only [List.mem_cons, exists_eq_or_imp, or_assoc]

end

/-- A saved VIP is served exactly when its spec is valid and no earlier one takes its listener. -/
theorem foldl_loadStep_serves {env : String → Environment} {stateFile : Option String}
    {before after : List (String × VipSpec)} {vip : String × VipSpec}
    (hosts : Hosts env (before ++ vip :: after) (new stateFile))
    (distinct : (before ++ vip :: after).Pairwise fun first second => first.1 ≠ second.1) :
    ((before ++ vip :: after).foldl (loadStep env) (new stateFile)).Serves vip.1 vip.2 ↔
      ∃ c, check vip.2 = .ok c ∧
        ∀ other ∈ before, ∀ c', check other.2 = .ok c' → c'.listen ≠ c.listen := by
  obtain ⟨distinctBefore, distinctAfter, apart⟩ := List.pairwise_append.mp distinct
  obtain ⟨later, _⟩ := List.pairwise_cons.mp distinctAfter
  have earlier : ∀ other ∈ before, vip.1 ≠ other.1 := fun other member =>
    (apart other member vip List.mem_cons_self).symm
  have listens (listen : SocketAddr) : (before.foldl (loadStep env) (new stateFile)).Listens listen ↔
      ∃ other ∈ before, ∃ c, check other.2 = .ok c ∧ c.listen = listen := by
    rw [foldl_loadStep_listens hosts.before distinctBefore fun _ _ => rfl]
    exact or_iff_right fun ⟨_, _, present, _⟩ => nomatch present
  rw [List.foldl_append, List.foldl_cons, Serves, (foldl_loadStep_frame env after _ later).1]
  have absent : (before.foldl (loadStep env) (new stateFile)).vips[vip.1]? = none :=
    (foldl_loadStep_frame env before _ earlier).1
  rcases loadStep_cases absent (hosts.loads vip (by simp)) (hosts.binds before vip after rfl) with
    ⟨c, e, starts, same, made⟩ | ⟨refused, same⟩
  · refine iff_of_true ⟨e, ?_, made.setsSource, made.setsSpec⟩ ⟨c, starts.checked, ?_⟩
    · rw [same]
      exact Std.ExtTreeMap.getElem?_insert_self
    · intro other member c' checked there
      exact starts.free ((listens _).mpr ⟨other, member, c', checked, there⟩)
  · refine iff_of_false ?_ ?_
    · rintro ⟨e, present, _⟩
      rw [same, absent] at present
      cases present
    · rintro ⟨c, checked, free⟩
      refine refused c ⟨checked, fun there => ?_⟩
      obtain ⟨other, member, c', checked', same'⟩ := (listens _).mp there
      exact free other member c' checked' same'

end Registry

/-- What stands before a name in the list of a map are the smaller names. -/
theorem mem_before_iff {saved : State} {before after : List (String × VipSpec)}
    {vip other : String × VipSpec} (split : saved.toList = before ++ vip :: after) :
    other ∈ before ↔ saved[other.1]? = some other.2 ∧ compare other.1 vip.1 = .lt := by
  have ordered : saved.toList.Pairwise fun first second => compare first.1 second.1 = .lt :=
    Std.ExtTreeMap.ordered_keys_toList
  have listed : other ∈ saved.toList ↔ saved[other.1]? = some other.2 :=
    Std.ExtTreeMap.mem_toList_iff_getElem?_eq_some
  rw [split] at ordered listed
  obtain ⟨_, orderedAfter, apart⟩ := List.pairwise_append.mp ordered
  obtain ⟨later, _⟩ := List.pairwise_cons.mp orderedAfter
  constructor
  · intro member
    exact ⟨listed.mp (List.mem_append_left _ member), apart other member vip List.mem_cons_self⟩
  · rintro ⟨present, less⟩
    rcases List.mem_append.mp (listed.mpr present) with member | member
    · exact member
    · rcases List.mem_cons.mp member with rfl | member
      · exact absurd less (Std.OrientedCmp.not_lt_of_lt less)
      · exact absurd less (Std.OrientedCmp.not_lt_of_lt (later other member))

/-! ## The file after the last save -/

/-- `serde_json` between values and text. -/
structure JsonText where
  toStringPretty : Json → String
  fromStr : String → Except String Json
  /-- What is said of a value that is no state. -/
  mismatch : Json → String

/-- The state file's text, by way of its value. -/
def JsonText.serde (json : JsonText) : Serde where
  toStringPretty saved := json.toStringPretty saved.toJson
  fromStr text := do
    let value ← json.fromStr text
    match State.fromJson value with
    | some saved => .ok saved
    | none => .error (json.mismatch value)

/-- A state whose text reads back is itself read back. -/
theorem JsonText.serde_readsBack {json : JsonText} {saved : State}
    (readsBack : json.fromStr (json.toStringPretty saved.toJson) = .ok saved.toJson) :
    json.serde.fromStr (json.serde.toStringPretty saved) = .ok saved := by
  change (json.fromStr (json.toStringPretty saved.toJson) >>= _) = _
  rw [readsBack]
  change (match State.fromJson saved.toJson with
    | some saved => Except.ok saved
    | none => .error (json.mismatch saved.toJson)) = _
  rw [State.fromJson_toJson]

/-- Reading the state file. -/
def readState : Option String → FileRead
  | none => .notFound
  | some text => .text text

/-- Whether the file holds the registry after a reply, when it did or did not before. -/
def Reply.leavesSaved (held : Bool) : Reply → Bool
  | .ok _ => true
  | .error (.notSaved ..) => false
  | .error _ => held

/-- The last save of the calls succeeded. -/
def lastSaved (log : List (Call × Reply)) : Bool :=
  log.foldl (fun held entry => entry.2.leavesSaved held) false

section

variable {serde : Serde} {path : String} {site : Site}

/-- When a reply says the save succeeded, the file holds the registry. -/
structure Held (serde : Serde) (path : String) (held : Bool) (site : Site) : Prop where
  stateFile : site.registry.stateFile = some path
  file : held = true → site.disk path = some (current serde site)

theorem Held.call {held : Bool} (before : Held serde path held site) (call : Call) :
    Held serde path ((site.call serde call).1.leavesSaved held) (site.call serde call).2 := by
  obtain ⟨called, _⟩ := calls serde call site
  generalize site.call serde call = ended at called ⊢
  obtain ⟨reply, after⟩ := ended
  cases called with
  | refused error saved stateFile disk =>
      refine ⟨stateFile.trans before.stateFile, fun still => ?_⟩
      have was : held = true := by
        cases error with
        | notSaved path error => cases still
        | _ => exact still
      change after.disk path = _
      rw [disk, before.file was, current, current]
      exact congrArg (fun state => some (serde.toStringPretty state)) saved.symm
  | changed changed result made registry disk stateFile saves others applied =>
      rw [before.stateFile] at stateFile
      refine ⟨by rw [registry, stateFile], fun saved => ?_⟩
      cases saves with
      | unsaved nowhere _ => cases stateFile.symm.trans nowhere
      | saved _ there holds =>
          cases stateFile.symm.trans there
          change after.disk path = _
          rw [holds, current, current, registry]
      | failed _ _ there _ => cases saved

/-- After calls whose last save succeeded, the file holds the registry. -/
theorem Held.calls {held : Bool} (before : Held serde path held site) (calls : List Call) :
    Held serde path
      ((site.calls serde calls).1.foldl (fun held entry => entry.2.leavesSaved held) held)
      (site.calls serde calls).2 := by
  induction calls generalizing site held with
  | nil => exact before
  | cons call rest ih => exact ih (before.call call)

/-- What calls leave of the registry is what the operations leave. -/
theorem calls_registry (calls : List Call) :
    (site.calls serde calls).2.registry =
      site.registry.runAll (calls.map (Call.operation serde)) := by
  induction calls generalizing site with
  | nil => rfl
  | cons call rest ih =>
      rw [List.map_cons, Registry.runAll, List.foldl_cons, ← (Vips.calls serde call site).2]
      exact ih

end

/-- Every served spec is valid. -/
def Registry.Valid (r : Registry) : Prop :=
  ∀ (name : String) (e : Entry), r.vips[name]? = some e → ∃ c, check e.spec = .ok c

theorem Registry.kept_valid : Registry.Kept (fun _ => True) Registry.Valid where
  congr same valid := by
    intro name e present
    rw [same] at present
    exact valid name e present
  put {r env} name spec fromConfig _ valid := by
    have outcome := r.put_outcome env name spec fromConfig
    generalize r.put env name spec fromConfig = result at outcome ⊢
    have besides {e : Entry} {after : Registry} (same : r.SameBesides name e after)
        (checked : ∃ c, check e.spec = .ok c) : after.Valid := by
      intro other e' present
      rw [same.getElem?] at present
      split at present
      · cases present
        exact checked
      · exact valid other e' present
    cases outcome with
    | refused error _ => exact valid
    | halfway admits _ same =>
        exact besides same (by simpa [Entry.halfway] using valid name _ admits.present)
    | updated admits _ replaces same =>
        exact besides same ⟨_, by rw [replaces.setsSpec]; exact admits.checked⟩
    | created checked _ _ made same => exact besides same ⟨_, by rw [made.setsSpec]; exact checked⟩
  erase {r after name} erased valid := by
    intro other e present
    rw [erased, Std.ExtTreeMap.getElem?_erase] at present
    split at present
    · cases present
    · exact valid other e present
  idle {r name e after} present idles valid := by
    intro other e' there
    rw [(setEntry_sameBesides name after rfl rfl rfl).getElem?] at there
    split at there
    · cases there
      rw [idles.spec]
      exact valid name e present
    · exact valid other e' there

/-! ## Serving again -/

/-- No saved VIP with an earlier name and a valid spec has the listener of this one. -/
def NoneAhead (saved : State) (name : String) (spec : VipSpec) : Prop :=
  ∀ (other : String) (ahead : VipSpec), saved[other]? = some ahead → compare other name = .lt →
    ∀ c c', check ahead = .ok c → check spec = .ok c' → c.listen ≠ c'.listen

/-- The registry of a process that starts, without a VIP in its config, from the state file. -/
def restarted (serde : Serde) (path : String) (file : Option String)
    (env : String → Environment) : Registry :=
  ((Registry.new (some path)).loadState serde (readState file) env).2

/-- A served API VIP serves again exactly when no saved one is ahead of it. -/
theorem restarted_serves_iff {serde : Serde} {path : String} {site : Site}
    {env : String → Environment} (valid : site.registry.Valid)
    (file : site.disk path = some (current serde site))
    (readsBack : serde.fromStr (current serde site) = .ok site.registry.saved)
    (hosts : Registry.Hosts env site.registry.saved.toList (.new (some path)))
    {name : String} {e : Entry} (serving : site.registry.vips[name]? = some e)
    (api : e.fromConfig = false) :
    (restarted serde path (site.disk path) env).Serves name e.spec ↔
      NoneAhead site.registry.saved name e.spec := by
  have saved : site.registry.saved[name]? = some e.spec := saved_of_serving serving api
  obtain ⟨before, after, split⟩ :=
    List.append_of_mem (Std.ExtTreeMap.mem_toList_iff_getElem?_eq_some.mpr saved)
  have distinct := pairwise_toList site.registry.saved
  obtain ⟨c', checked⟩ := valid name e serving
  rw [split] at hosts distinct
  have serves := Registry.foldl_loadStep_serves hosts distinct
  rw [restarted, file, readState, Registry.loadState_eq rfl readsBack, split, serves]
  constructor
  · rintro ⟨own, checked', free⟩ other ahead present less c c' first second
    cases checked'.symm.trans second
    exact free (other, ahead) ((mem_before_iff split).mpr ⟨present, less⟩) c first
  · intro free
    refine ⟨c', checked, fun other member c first => ?_⟩
    obtain ⟨present, less⟩ := (mem_before_iff split).mp member
    exact free other.1 other.2 present less c c' first checked

theorem loadState_stateFile (r : Registry) (serde : Serde) (file : FileRead)
    (env : String → Environment) : (r.loadState serde file env).2.stateFile = r.stateFile := by
  unfold Registry.loadState
  split
  · rfl
  · rfl
  · rfl
  · split
    · rfl
    · exact (congrArg Registry.stateFile (Registry.foldl_loadOne_snd env _ _)).trans
        (Registry.foldl_loadStep_stateFile env _ r)

/--
After calls whose last save succeeded, every API VIP that is served serves again
after a restart exactly when none of them has a saved VIP ahead of it.
-/
theorem restart_serves_iff {json : JsonText} {path : String} {file : FileRead}
    {env again : String → Environment} {site : Site} {calls : List Call}
    (started : site.registry = ((Registry.new (some path)).loadState json.serde file env).2)
    (saved : lastSaved (site.calls json.serde calls).1 = true)
    (readsBack :
      json.fromStr (json.toStringPretty (site.calls json.serde calls).2.registry.saved.toJson) =
        .ok (site.calls json.serde calls).2.registry.saved.toJson)
    (hosts : Registry.Hosts again (site.calls json.serde calls).2.registry.saved.toList
      (.new (some path))) :
    (∀ (name : String) (e : Entry),
        (site.calls json.serde calls).2.registry.vips[name]? = some e → e.fromConfig = false →
          (restarted json.serde path ((site.calls json.serde calls).2.disk path) again).Serves
            name e.spec) ↔
      ∀ (name : String) (e : Entry),
        (site.calls json.serde calls).2.registry.vips[name]? = some e → e.fromConfig = false →
          NoneAhead (site.calls json.serde calls).2.registry.saved name e.spec := by
  have held : Held json.serde path false site := by
    refine ⟨?_, fun impossible => nomatch impossible⟩
    rw [started, loadState_stateFile]
    rfl
  have valid : (site.calls json.serde calls).2.registry.Valid := by
    rw [calls_registry]
    refine Registry.kept_valid.runAll (fun operation _ => operation.puts_of_forall (fun _ => trivial)) ?_
    rw [started]
    refine Registry.kept_valid.loadState (fun _ => trivial) json.serde file ?_
    exact fun name e present => nomatch present
  have inFile := (held.calls calls).file saved
  refine forall_congr' fun name => forall_congr' fun e => forall_congr' fun serving =>
    forall_congr' fun api => ?_
  exact restarted_serves_iff valid inFile (JsonText.serde_readsBack readsBack) hosts serving api

/-! ## A pending VIP ahead -/

/-- The VIP `b`, on the listener of the VIP `a`. -/
def besideA : String × VipSpec :=
  ("b", vipA.2)

def besideStates : List (List (String × VipSpec)) :=
  [[vipA], [vipA, besideA]]

theorem legible_besideStates : Legible besideStates := by
  decide +kernel

/-- `serde_json` on these states. -/
def jsonBeside : JsonText where
  toStringPretty value :=
    ((State.fromJson value).map (prettyStates besideStates).toStringPretty).getD ""
  fromStr text := ((prettyStates besideStates).fromStr text).map State.toJson
  mismatch := fun _ => "invalid type"

theorem jsonBeside_readsBack {saved : State} (member : saved.toList ∈ besideStates) :
    jsonBeside.fromStr (jsonBeside.toStringPretty saved.toJson) = .ok saved.toJson := by
  simp only [jsonBeside, State.fromJson_toJson, Option.map_some, Option.getD_some,
    prettyStates_readsBack legible_besideStates member]
  rfl

/-- Another process holds the listener of `a` when the saved VIPs are loaded. -/
def taken : Environment :=
  { freeNode with bind := fun _ => .error "Address already in use (os error 98)" }

def pendingA : Site where
  registry := ((Registry.new (some stateFile)).loadState jsonBeside.serde (.text savedA)
    fun _ => taken).2
  disk := fun file => if file = stateFile then some savedA else none
  env := freeNode

theorem pendingA_registry :
    pendingA.registry = ((Registry.new (some stateFile)).loadState jsonBeside.serde (.text savedA)
      fun _ => taken).2 := by
  rw [pendingA]

/-- It is gone when `b` is applied. -/
def applyBeside : Call :=
  { applyB with request := .apply besideA.1 besideA.2 }

/-- The site when `b` is served and saved. -/
def servesB : Site :=
  (pendingA.calls jsonBeside.serde [applyBeside]).2

theorem servesB_eq : (pendingA.calls jsonBeside.serde [applyBeside]).2 = servesB := by
  rw [servesB]

theorem servesB_lastSaved :
    lastSaved (pendingA.calls jsonBeside.serde [applyBeside]).1 = true := by
  decide +kernel

theorem servesB_saved : servesB.registry.saved.toList = [vipA, besideA] := by
  decide +kernel

theorem servesB_readsBack :
    jsonBeside.fromStr (jsonBeside.toStringPretty servesB.registry.saved.toJson) =
      .ok servesB.registry.saved.toJson := by
  refine jsonBeside_readsBack ?_
  rw [servesB_saved]
  exact List.mem_cons_of_mem _ List.mem_cons_self

/-- Every address is free when the process starts again. -/
theorem servesB_hosts :
    Registry.Hosts (fun _ => freeNode) servesB.registry.saved.toList (.new (some stateFile)) where
  loads vip member := by
    rw [servesB_saved] at member
    refine ⟨none, ?_⟩
    rcases List.mem_pair.mp member with rfl | rfl
    · rfl
    · rfl
  binds before vip after split listen error taken := nomatch taken

/-- The VIP that was pending starts first, and `b` does not serve again. -/
theorem pending_takes_listener :
    ¬ ∀ (json : JsonText) (path : String) (file : FileRead) (env again : String → Environment)
      (site : Site) (calls : List Call),
      site.registry = ((Registry.new (some path)).loadState json.serde file env).2 →
        lastSaved (site.calls json.serde calls).1 = true →
        json.fromStr (json.toStringPretty (site.calls json.serde calls).2.registry.saved.toJson) =
          .ok (site.calls json.serde calls).2.registry.saved.toJson →
        Registry.Hosts again (site.calls json.serde calls).2.registry.saved.toList
          (.new (some path)) →
        ∀ (name : String) (e : Entry),
          (site.calls json.serde calls).2.registry.vips[name]? = some e → e.fromConfig = false →
            (restarted json.serde path ((site.calls json.serde calls).2.disk path) again).Serves
              name e.spec := by
  intro serves
  have serving : servesB.registry.vips["b"]?.isSome = true := by decide +kernel
  have api : servesB.registry.fromConfigAt "b" = false := by decide +kernel
  have gone : (restarted jsonBeside.serde stateFile (servesB.disk stateFile)
      fun _ => freeNode).vips["b"]?.isSome = false := by
    decide +kernel
  obtain ⟨e, present⟩ := Option.isSome_iff_exists.mp serving
  rw [Registry.fromConfigAt, present] at api
  have again := serves jsonBeside stateFile (.text savedA) (fun _ => taken) (fun _ => freeNode)
    pendingA [applyBeside] pendingA_registry servesB_lastSaved
  rw [servesB_eq] at again
  obtain ⟨e', present', _⟩ := again servesB_readsBack servesB_hosts "b" e present api
  rw [present'] at gone
  cases gone

theorem restart_serves_iff_besideA :
    (∀ (name : String) (e : Entry), servesB.registry.vips[name]? = some e → e.fromConfig = false →
        (restarted jsonBeside.serde stateFile (servesB.disk stateFile) fun _ => freeNode).Serves
          name e.spec) ↔
      ∀ (name : String) (e : Entry), servesB.registry.vips[name]? = some e → e.fromConfig = false →
        NoneAhead servesB.registry.saved name e.spec := by
  have serves := @restart_serves_iff jsonBeside stateFile (.text savedA) (fun _ => taken)
    (fun _ => freeNode) pendingA [applyBeside] pendingA_registry servesB_lastSaved
  rw [servesB_eq] at serves
  exact serves servesB_readsBack servesB_hosts

end StormLb.Vips
