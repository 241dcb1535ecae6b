import StormLb.Vips.Calls
import StormLb.Vips.Codec

/-!
# What stays in the state file

A saved VIP that is loaded is served or pending, and both are saved again: it
stays in the state file until it is removed.
-/

namespace StormLb.Vips

/-! ## Loading the saved VIPs -/

namespace Registry

/-- Load one saved VIP. -/
def loadStep (env : String → Environment) (r : Registry) (vip : String × VipSpec) : Registry :=
  (loadOne env (0, r) vip).2

theorem loadOne_snd (env : String → Environment) (state : Nat × Registry)
    (vip : String × VipSpec) : (loadOne env state vip).2 = state.2.loadStep env vip := by
  unfold loadStep loadOne
  split <;> simp [*]

theorem foldl_loadOne_snd (env : String → Environment) (vips : List (String × VipSpec))
    (state : Nat × Registry) :
    (vips.foldl (loadOne env) state).2 = vips.foldl (loadStep env) state.2 := by
  induction vips generalizing state with
  | nil => rfl
  | cons vip rest ih => rw [List.foldl_cons, List.foldl_cons, ih, loadOne_snd]

/-- A file that can be read is loaded from its first name to its last. -/
theorem loadState_eq {r : Registry} {path text : String} {serde : Serde} {saved : State}
    (there : r.stateFile = some path) (decodes : serde.fromStr text = .ok saved)
    (env : String → Environment) :
    (r.loadState serde (.text text) env).2 = saved.toList.foldl (loadStep env) r := by
  unfold loadState
  simp only [there, decodes]
  exact foldl_loadOne_snd env _ _

/-- Loading a VIP touches no other name. -/
theorem loadStep_frame (env : String → Environment) (r : Registry) {vip : String × VipSpec}
    {other : String} (apart : other ≠ vip.1) :
    (r.loadStep env vip).vips[other]? = r.vips[other]? ∧
      (r.loadStep env vip).pending[other]? = r.pending[other]? := by
  refine ⟨loadOne_frame env (0, r) vip apart, ?_⟩
  have pending := (r.put_frame (env vip.1) vip.1 vip.2 false).2.1
  unfold loadStep loadOne
  split
  · rename_i put
    rw [put] at pending
    exact congrArg (·[other]?) pending
  · rename_i put
    rw [put] at pending
    have apart' : compare vip.1 other ≠ .eq := fun equal =>
      apart (Std.LawfulEqCmp.compare_eq_iff_eq.mp equal).symm
    rw [Std.ExtTreeMap.getElem?_insert, if_neg apart', ← pending]

/-- A VIP that was loaded is pending, or served with its spec. -/
def Loaded (was : Bool) (r : Registry) (vip : String × VipSpec) : Prop :=
  r.pending[vip.1]? = some vip.2 ∨
    ∃ e, r.vips[vip.1]? = some e ∧ e.spec = vip.2 ∧ e.fromConfig = was

theorem loadStep_loaded (env : String → Environment) (r : Registry) (vip : String × VipSpec) :
    (r.loadStep env vip).Loaded (r.fromConfigAt vip.1) vip := by
  have outcome := r.put_outcome (env vip.1) vip.1 vip.2 false
  unfold loadStep loadOne
  split
  · rename_i put
    rw [put] at outcome
    cases outcome with
    | updated admits _ replaces same =>
        refine .inr ⟨_, by rw [same.getElem?, if_pos rfl], replaces.setsSpec, ?_⟩
        rw [replaces.keepsSource, fromConfigAt, admits.present]
        rfl
    | created _ _ absent made same =>
        refine .inr ⟨_, by rw [same.getElem?, if_pos rfl], made.setsSpec, ?_⟩
        rw [made.setsSource, fromConfigAt, absent]
        rfl
  · exact .inl (by simp)

theorem Loaded.congr {was : Bool} {r after : Registry} {vip : String × VipSpec}
    (loaded : r.Loaded was vip) (vips : after.vips[vip.1]? = r.vips[vip.1]?)
    (pending : after.pending[vip.1]? = r.pending[vip.1]?) : after.Loaded was vip := by
  rw [Loaded, vips, pending]
  exact loaded

/-- A name that is not loaded stays as it is. -/
theorem foldl_loadStep_frame (env : String → Environment) (vips : List (String × VipSpec))
    (r : Registry) {other : String} (apart : ∀ vip ∈ vips, other ≠ vip.1) :
    (vips.foldl (loadStep env) r).vips[other]? = r.vips[other]? ∧
      (vips.foldl (loadStep env) r).pending[other]? = r.pending[other]? := by
  induction vips generalizing r with
  | nil => exact ⟨rfl, rfl⟩
  | cons vip rest ih =>
      obtain ⟨served, pends⟩ := r.loadStep_frame env (apart vip List.mem_cons_self)
      obtain ⟨served', pends'⟩ :=
        ih (r.loadStep env vip) fun later member => apart later (List.mem_cons_of_mem _ member)
      exact ⟨served'.trans served, pends'.trans pends⟩

theorem loadStep_stateFile (env : String → Environment) (r : Registry) (vip : String × VipSpec) :
    (r.loadStep env vip).stateFile = r.stateFile := by
  have same := (r.put_frame (env vip.1) vip.1 vip.2 false).2.2
  unfold loadStep loadOne
  split
  · rename_i put
    rwa [put] at same
  · rename_i put
    rwa [put] at same

theorem foldl_loadStep_stateFile (env : String → Environment) (vips : List (String × VipSpec))
    (r : Registry) : (vips.foldl (loadStep env) r).stateFile = r.stateFile := by
  induction vips generalizing r with
  | nil => rfl
  | cons vip rest ih => exact (ih (r.loadStep env vip)).trans (r.loadStep_stateFile env vip)

/-- Every VIP of the list is loaded, whatever follows it. -/
theorem foldl_loadStep_loaded (env : String → Environment) (vips : List (String × VipSpec))
    (r : Registry) (distinct : vips.Pairwise fun first second => first.1 ≠ second.1)
    {vip : String × VipSpec} (member : vip ∈ vips) :
    (vips.foldl (loadStep env) r).Loaded (r.fromConfigAt vip.1) vip := by
  induction vips generalizing r with
  | nil => cases member
  | cons first rest ih =>
      obtain ⟨apart, distinct⟩ := List.pairwise_cons.mp distinct
      rcases List.mem_cons.mp member with rfl | later
      · obtain ⟨served, pends⟩ := foldl_loadStep_frame env rest (r.loadStep env vip) apart
        exact (r.loadStep_loaded env vip).congr served pends
      · have same : (r.loadStep env first).fromConfigAt vip.1 = r.fromConfigAt vip.1 := by
          rw [fromConfigAt, (r.loadStep_frame env (apart vip later).symm).1, fromConfigAt]
        rw [List.foldl_cons, ← same]
        exact ih _ distinct later

end Registry

/-- The names of a map are distinct. -/
theorem pairwise_toList (saved : State) :
    saved.toList.Pairwise fun first second => first.1 ≠ second.1 := by
  refine Std.ExtTreeMap.distinct_keys_toList.imp fun apart same => apart ?_
  rw [same]
  exact Std.ReflCmp.compare_self

/-! ## Starting -/

/-- What the node answers at a start: for the config's VIP, if it has one, and for each saved one. -/
structure Start where
  config : Option (Environment × VipSpec)
  env : String → Environment

/-- The registry with the config's VIP. -/
def Start.configured (start : Start) (path : String) : Registry :=
  match start.config with
  | none => .new (some path)
  | some (env, spec) => ((Registry.new (some path)).startConfig env spec).2

/-- The registry after a start. -/
def Start.registry (start : Start) (serde : Serde) (path : String) (file : FileRead) : Registry :=
  ((start.configured path).loadState serde file start.env).2

/-- A saved VIP was put over one of the config. -/
def PutOverConfig (saved : State) (r : Registry) : Prop :=
  ∃ name ∈ saved, r.fromConfigAt name = true ∧ name ∉ r.pending

theorem Start.configured_stateFile (start : Start) (path : String) :
    (start.configured path).stateFile = some path := by
  unfold Start.configured
  split
  · rfl
  · rename_i env spec _
    exact ((Registry.new (some path)).put_frame env configVip spec true).2.2

theorem Start.registry_stateFile {serde : Serde} {path text : String} {saved : State} (start : Start)
    (decodes : serde.fromStr text = .ok saved) :
    (start.registry serde path (.text text)).stateFile = some path := by
  rw [Start.registry, Registry.loadState_eq (start.configured_stateFile path) decodes,
    Registry.foldl_loadStep_stateFile, start.configured_stateFile]

theorem mem_saved_of_pending {r : Registry} {name : String} (pends : name ∈ r.pending) :
    name ∈ r.saved := by
  rw [Std.ExtTreeMap.mem_iff_isSome_getElem?, Registry.saved, savedOver_getElem?]
  have there := Std.ExtTreeMap.mem_iff_isSome_getElem?.mp pends
  cases (r.vips[name]? : Option Entry) with
  | none => exact there
  | some e =>
      dsimp only
      split
      · exact there
      · rfl

/-- What was loaded is saved again, unless it was put over the config's VIP. -/
theorem Start.mem_saved {start : Start} {serde : Serde} {path text : String} {saved : State}
    (decodes : serde.fromStr text = .ok saved)
    (spared : ¬ PutOverConfig saved (start.registry serde path (.text text))) {name : String}
    (member : name ∈ saved) : name ∈ (start.registry serde path (.text text)).saved := by
  have present := Std.ExtTreeMap.mem_iff_isSome_getElem?.mp member
  obtain ⟨spec, there⟩ := Option.isSome_iff_exists.mp present
  have loaded := Registry.foldl_loadStep_loaded start.env saved.toList (start.configured path)
    (pairwise_toList saved) (Std.ExtTreeMap.mem_toList_iff_getElem?_eq_some.mpr there)
  rw [← Registry.loadState_eq (start.configured_stateFile path) decodes start.env] at loaded
  change (start.registry serde path (.text text)).pending[name]? = some spec ∨
    ∃ e, (start.registry serde path (.text text)).vips[name]? = some e ∧ e.spec = spec ∧ _ at loaded
  rcases loaded with pends | ⟨e, serves, _, _⟩
  · exact mem_saved_of_pending (Std.ExtTreeMap.mem_iff_isSome_getElem?.mpr (by rw [pends]; rfl))
  · cases api : e.fromConfig with
    | false =>
        rw [Std.ExtTreeMap.mem_iff_isSome_getElem?, saved_of_serving serves api]
        rfl
    | true =>
        have configured : (start.registry serde path (.text text)).fromConfigAt name = true := by
          rw [Registry.fromConfigAt, serves]
          exact api
        refine mem_saved_of_pending ?_
        by_contra gone
        exact spared ⟨name, member, configured, gone⟩

/-! ## Staying -/

/-- The request was applied, whether it was saved or not. -/
def Reply.Applied : Reply → Prop
  | .ok _ => True
  | .error (.notSaved ..) => True
  | .error _ => False

/-- The text is what a state with this name was written as, or what reads as such a state. -/
def Says (serde : Serde) (text name : String) : Prop :=
  ∃ state : State, name ∈ state ∧ (serde.fromStr text = .ok state ∨ text = serde.toStringPretty state)

/-- The registry would save the name, and the file has it. -/
structure Stays (serde : Serde) (path name : String) (site : Site) : Prop where
  stateFile : site.registry.stateFile = some path
  saved : name ∈ site.registry.saved
  file : ∃ text, site.disk path = some text ∧ Says serde text name

section

variable {serde : Serde} {path name : String} {site : Site}

/-- One call leaves the name, unless it removes it. -/
theorem Stays.call (apart : withExtension path "tmp" ≠ path) (stays : Stays serde path name site)
    (call : Call) (unremoved : call.request = .remove name → ¬ (site.call serde call).1.Applied) :
    Stays serde path name (site.call serde call).2 := by
  obtain ⟨called, _⟩ := calls serde call site
  generalize site.call serde call = ended at called unremoved ⊢
  obtain ⟨reply, after⟩ := ended
  cases called with
  | refused error saved stateFile disk =>
      exact ⟨stateFile.trans stays.stateFile, saved ▸ stays.saved, disk ▸ stays.file⟩
  | changed changed result made registry disk stateFile saves others applied =>
      have keeps : name ∈ changed.registry.saved := by
        rw [Std.ExtTreeMap.mem_iff_isSome_getElem?]
        by_cases own : name = call.request.name
        · cases request : call.request with
          | apply named spec =>
              rw [request] at own
              rw [own, Request.name, applied named spec request]
              rfl
          | remove named =>
              -- It was removed, and the removal was saved or not.
              rw [request] at own
              refine absurd ?_ (unremoved (by rw [request, own, Request.name]))
              cases saves <;> trivial
        · rw [others name own]
          exact Std.ExtTreeMap.mem_iff_isSome_getElem?.mp stays.saved
      rw [stays.stateFile] at stateFile
      refine ⟨by rw [registry, stateFile], by rw [registry]; exact keeps, ?_⟩
      cases saves with
      | unsaved nowhere _ =>
          rw [stateFile] at nowhere
          cases nowhere
      | saved _ there holds =>
          rw [stateFile] at there
          cases there
          exact ⟨_, holds, changed.registry.saved, keeps, .inr rfl⟩
      | failed _ _ there same =>
          rw [stateFile] at there
          cases there
          rw [same apart, disk]
          exact stays.file

/-- Calls leave the name, unless one of them removes it. -/
theorem Stays.calls (apart : withExtension path "tmp" ≠ path) (stays : Stays serde path name site)
    (calls : List Call)
    (unremoved : ∀ entry ∈ (site.calls serde calls).1, entry.1.request = .remove name →
      ¬ entry.2.Applied) :
    Stays serde path name (site.calls serde calls).2 := by
  induction calls generalizing site with
  | nil => exact stays
  | cons call rest ih =>
      refine ih (stays.call apart call (unremoved (call, _) List.mem_cons_self)) ?_
      exact fun entry member => unremoved entry (List.mem_cons_of_mem _ member)

/--
A saved VIP of a file that loads stays in the file, however the calls end, until
a `remove` of it was applied.
-/
theorem saved_stays {start : Start} {text : String} {saved : State} {calls : List Call}
    (apart : withExtension path "tmp" ≠ path) (decodes : serde.fromStr text = .ok saved)
    (spared : ¬ PutOverConfig saved (start.registry serde path (.text text)))
    (started : site.registry = start.registry serde path (.text text))
    (there : site.disk path = some text) (member : name ∈ saved)
    (unremoved : ∀ entry ∈ (site.calls serde calls).1, entry.1.request = .remove name →
      ¬ entry.2.Applied)
    (readsBack : ∀ state, (site.calls serde calls).2.disk path = some (serde.toStringPretty state) →
      serde.fromStr (serde.toStringPretty state) = .ok state) :
    ∃ text state, (site.calls serde calls).2.disk path = some text ∧
      serde.fromStr text = .ok state ∧ name ∈ state := by
  have stays : Stays serde path name site :=
    { stateFile := by rw [started]; exact start.registry_stateFile decodes
      saved := by rw [started]; exact Start.mem_saved decodes spared member
      file := ⟨text, there, saved, member, .inl decodes⟩ }
  obtain ⟨final, file, state, holds, reads | rfl⟩ := (stays.calls apart calls unremoved).file
  · exact ⟨final, state, file, reads, holds⟩
  · exact ⟨_, state, file, readsBack state file, holds⟩

end

/-! ## A removal that is not saved -/

def vipA : String × VipSpec :=
  ("a", { address := "10.0.0.1", port := 443 })

def vipB : String × VipSpec :=
  ("b", { address := "10.0.0.2", port := 443 })

/-- `serde_json` on some states. -/
def prettyStates (states : List (List (String × VipSpec))) : Serde where
  toStringPretty state := if state.toList ∈ states then pretty.toStringPretty state else ""
  fromStr text :=
    match states.find? fun vips => pretty.toStringPretty (.ofList vips) = text with
    | some vips => .ok (.ofList vips)
    | none => .error "EOF while parsing a value at line 1 column 0"

/-- Their texts differ. -/
abbrev Legible (states : List (List (String × VipSpec))) : Prop :=
  ∀ vips ∈ states, states.find? (fun other =>
    pretty.toStringPretty (.ofList other) = pretty.toStringPretty (.ofList vips)) = some vips

theorem prettyStates_fromStr {states : List (List (String × VipSpec))} (legible : Legible states)
    {vips : List (String × VipSpec)} (member : vips ∈ states) :
    (prettyStates states).fromStr (pretty.toStringPretty (.ofList vips)) = .ok (.ofList vips) := by
  simp only [prettyStates, legible vips member]

/-- They read back as they were written. -/
theorem prettyStates_readsBack {states : List (List (String × VipSpec))} (legible : Legible states)
    {state : State} (member : state.toList ∈ states) :
    (prettyStates states).fromStr ((prettyStates states).toStringPretty state) = .ok state := by
  have reads := prettyStates_fromStr legible member
  rw [ofList_toList] at reads
  rw [← reads]
  simp only [prettyStates, if_pos member]

/-- `serde_json` on the states that are written below. -/
def prettyAB : Serde :=
  prettyStates [[vipA], [vipB], [vipA, vipB]]

theorem legibleAB : Legible [[vipA], [vipB], [vipA, vipB]] := by
  decide +kernel

/-- The VIP `a` is saved. -/
def savedA : String :=
  pretty.toStringPretty (.ofList [vipA])

def restart : Start where
  config := none
  env := fun _ => freeNode

def serveA : Site where
  registry := restart.registry prettyAB stateFile (.text savedA)
  disk := fun file => if file = stateFile then some savedA else none
  env := freeNode

theorem savedA_reads : prettyAB.fromStr savedA = .ok (.ofList [vipA]) := by
  rw [savedA, prettyAB]
  exact prettyStates_fromStr legibleAB List.mem_cons_self

theorem serveA_registry :
    serveA.registry = restart.registry prettyAB stateFile (.text savedA) := by
  rw [serveA]

theorem serveA_disk : serveA.disk stateFile = some savedA := by
  simp only [serveA, if_true]

def diskFull : Call where
  request := .remove "a"
  env := freeNode
  createParent := .ok ()
  write := .failed "No space left on device (os error 28)" (some "")
  rename := .ok ()

def applyB : Call where
  request := .apply vipB.1 vipB.2
  env := freeNode
  createParent := .ok ()
  write := .written
  rename := .ok ()

/-- A removal is applied but not saved, and the next save drops the name. -/
theorem unsaved_removal_drops :
    ¬ ∀ (serde : Serde) (path text name : String) (saved : State) (start : Start) (site : Site)
      (calls : List Call), serde.fromStr text = .ok saved →
        site.registry = start.registry serde path (.text text) → site.disk path = some text →
        name ∈ saved →
        (∀ entry ∈ (site.calls serde calls).1, entry.1.request.name = name →
          entry.2.isOk = false) →
        ∃ text state, (site.calls serde calls).2.disk path = some text ∧
          serde.fromStr text = .ok state ∧ name ∈ state := by
  intro stays
  obtain ⟨text, state, file, reads, member⟩ := stays prettyAB stateFile savedA "a"
    (.ofList [vipA]) restart serveA [diskFull, applyB] savedA_reads serveA_registry serveA_disk
    (by decide +kernel) (by decide +kernel)
  have dropped : (serveA.calls prettyAB [diskFull, applyB]).2.disk stateFile =
      some (pretty.toStringPretty (.ofList [vipB])) := by
    decide +kernel
  cases dropped.symm.trans file
  have left : prettyAB.fromStr (pretty.toStringPretty (.ofList [vipB])) = .ok (.ofList [vipB]) := by
    rw [prettyAB]
    exact prettyStates_fromStr legibleAB (List.mem_cons_of_mem _ List.mem_cons_self)
  cases left.symm.trans reads
  exact absurd member (by decide +kernel)

/-- The VIP stays while another one is applied. -/
theorem saved_stays_applyB :
    ∃ text state, (serveA.calls prettyAB [applyB]).2.disk stateFile = some text ∧
      prettyAB.fromStr text = .ok state ∧ "a" ∈ state := by
  have both : (serveA.calls prettyAB [applyB]).2.disk stateFile =
      some (pretty.toStringPretty (.ofList [vipA, vipB])) := by
    decide +kernel
  have written : pretty.toStringPretty (.ofList [vipA, vipB]) ≠ "" := by decide +kernel
  have spared : ¬ PutOverConfig (.ofList [vipA])
      (restart.registry prettyAB stateFile (.text savedA)) := by
    rintro ⟨name, member, configured, _⟩
    rw [Std.ExtTreeMap.mem_ofList] at member
    obtain rfl : name = "a" := by simpa [vipA] using member
    exact absurd configured (by decide +kernel)
  refine saved_stays (by decide) savedA_reads spared serveA_registry serveA_disk (by decide +kernel)
    ?_ fun state file => prettyStates_readsBack legibleAB ?_
  · intro entry member removes
    rw [List.mem_singleton.mp (mem_of_calls member)] at removes
    cases removes
  · by_contra other
    have text := Option.some.inj (both.symm.trans file)
    rw [prettyAB] at text
    simp only [prettyStates, if_neg other] at text
    exact written text

end StormLb.Vips
