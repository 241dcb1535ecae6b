import StormLb.Vips.Invariant
import StormLb.Vips.Save

/-!
# The order of saves

Nothing orders the writes of concurrent saves, so an older snapshot may be
written after a newer one.  When every save writes what the registry then
holds, the state file holds it once all calls have returned.
-/

namespace StormLb.Vips

open StormLb.Effects

/-! ## What is saved -/

theorem foldl_saved_of_fromConfig {name : String} (vips : List (String × Entry)) (saved : State)
    (other : ∀ vip ∈ vips, vip.1 = name → vip.2.fromConfig = true) :
    (vips.foldl (fun saved (n, e) => if e.fromConfig then saved else saved.insert n e.spec)
      saved)[name]? = saved[name]? := by
  induction vips generalizing saved with
  | nil => rfl
  | cons vip rest ih =>
      obtain ⟨n, e⟩ := vip
      rw [List.foldl_cons, ih _ fun vip member => other vip (List.mem_cons_of_mem _ member)]
      dsimp only
      split
      · rfl
      · rename_i api
        rw [Std.ExtTreeMap.getElem?_insert, if_neg]
        intro equal
        exact api (other (n, e) List.mem_cons_self (Std.LawfulEqCmp.compare_eq_iff_eq.mp equal))

theorem foldl_saved_of_mem {name : String} {e : Entry} (api : e.fromConfig = false)
    (vips : List (String × Entry)) (saved : State)
    (distinct : vips.Pairwise fun first second => first.1 ≠ second.1) (member : (name, e) ∈ vips) :
    (vips.foldl (fun saved (n, e) => if e.fromConfig then saved else saved.insert n e.spec)
      saved)[name]? = some e.spec := by
  induction vips generalizing saved with
  | nil => cases member
  | cons vip rest ih =>
      obtain ⟨apart, distinct⟩ := List.pairwise_cons.mp distinct
      rcases List.mem_cons.mp member with rfl | later
      · rw [List.foldl_cons, foldl_saved_of_fromConfig rest]
        · simp [api]
        · intro vip member same
          exact absurd same.symm (apart vip member)
      · exact ih _ distinct later

/-- The running API VIP wins over the pending one. -/
theorem savedOver_getElem? (pending : State) (vips : Std.ExtTreeMap String Entry) (name : String) :
    (savedOver pending vips)[name]? =
      match (vips[name]? : Option Entry) with
      | some e => if e.fromConfig then pending[name]? else some e.spec
      | none => pending[name]? := by
  have distinct : vips.toList.Pairwise fun first second => first.1 ≠ second.1 := by
    refine Std.ExtTreeMap.distinct_keys_toList.imp fun apart same => apart ?_
    rw [same]
    exact Std.ReflCmp.compare_self
  have found : ∀ e : Entry, (name, e) ∈ vips.toList ↔ vips[name]? = some e :=
    fun e => Std.ExtTreeMap.mem_toList_iff_getElem?_eq_some
  have spared : (∀ e, vips[name]? = some e → e.fromConfig = true) →
      (savedOver pending vips)[name]? = pending[name]? := by
    intro configured
    refine foldl_saved_of_fromConfig _ _ fun vip member same => configured vip.2 ?_
    rw [← found, ← same]
    exact member
  cases present : (vips[name]? : Option Entry) with
  | none => exact spared fun e impossible => absurd (present.symm.trans impossible) (by simp)
  | some e =>
      dsimp only
      cases api : e.fromConfig with
      | true =>
          refine spared fun other same => ?_
          rw [← Option.some.inj (present.symm.trans same)]
          exact api
      | false => exact foldl_saved_of_mem api _ _ distinct ((found e).mpr present)

/-! ## Where a call stands -/

/-- How far a call has come. -/
inductive Phase where
  | fresh
  | changed
  | written
  | renamed
  | failed
  deriving DecidableEq, Repr

@[simp] def phase : CallLog → Phase
  | [] => .fresh
  | ⟨op, answer⟩ :: past =>
      match op, answer with
      | .put .., .ok _ => .changed
      | .put .., .error _ => .failed
      | .unpend _, _ => .changed
      | .removeEntry _, .ok _ => .changed
      | .removeEntry _, .error _ => .failed
      | .createParent _, .error _ => .failed
      | .write .., .written => .written
      | .write .., .failed .. => .failed
      | .rename .., .ok _ => .renamed
      | .rename .., .error _ => .failed
      | _, _ => phase past

/-- After a failure nothing is done; a file is written after a change and renamed after that. -/
def CallOp.Follows (path : String) (op : CallOp) (past : CallLog) : Prop :=
  match op with
  | .write target _ => target = withExtension path "tmp" ∧ phase past = .changed
  | .rename source target =>
      source = withExtension path "tmp" ∧ target = path ∧ phase past = .written
  | _ => phase past ≠ .failed

/-- A call that returns `Ok` has renamed its file. -/
def Renamed (reply : Reply) (log : CallLog) : Prop :=
  ∀ created, reply = .ok created → phase log = .renamed

section

open Program (Keeps)

variable {path : String} {serde : Serde} {log : CallLog}

theorem keeps_writeAtomic (text : String) (changed : phase log = .changed) :
    Keeps (CallOp.Follows path) (fun result log => result = .ok () → phase log = .renamed)
      (writeAtomic path text) log := by
  refine ⟨by simp [CallOp.Follows, changed], fun directory => ?_⟩
  cases directory with
  | error error => exact fun impossible => by cases impossible
  | ok _ =>
      refine ⟨⟨rfl, by simp [changed]⟩, fun ended => ?_⟩
      cases ended with
      | failed error left => exact fun impossible => by cases impossible
      | written =>
          refine ⟨⟨rfl, rfl, rfl⟩, fun renamed => ?_⟩
          cases renamed with
          | error error => exact fun impossible => by cases impossible
          | ok _ => exact fun _ => rfl

theorem keeps_saveSteps (changed : phase log = .changed) :
    Keeps (CallOp.Follows path) (fun result log => result = .ok () → phase log = .renamed)
      (saveSteps serde (some path)) log := by
  refine ⟨by simp [CallOp.Follows, changed], fun pending => ?_⟩
  refine ⟨by simp [CallOp.Follows, changed], fun vips => ?_⟩
  refine (keeps_writeAtomic _ (by simp [changed])).bind fun result log renamed => ?_
  cases result with
  | error error => exact fun impossible => by cases impossible
  | ok _ => exact fun _ => renamed rfl

theorem keeps_saveAndReply (reply : Option Bool) (changed : phase log = .changed) :
    Keeps (CallOp.Follows path) Renamed (saveAndReply serde (some path) reply) log := by
  refine (keeps_saveSteps changed).bind fun result log renamed => ?_
  cases result with
  | error error => exact fun _ impossible => by cases impossible
  | ok _ => exact fun _ _ => renamed rfl

/-- Every call follows the order, and returns `Ok` only when its file is in place. -/
theorem keeps_steps (request : Request) :
    Keeps (CallOp.Follows path) Renamed (request.steps serde (some path)) [] := by
  cases request with
  | apply name spec =>
      change Keeps _ _ (applySteps serde (some path) name spec) []
      unfold applySteps
      cases validName name with
      | error error => exact fun _ impossible => by cases impossible
      | ok _ =>
          refine ⟨by simp [CallOp.Follows], fun configured => ?_⟩
          cases configured with
          | true => exact fun _ impossible => by cases impossible
          | false =>
              refine ⟨by simp [CallOp.Follows], fun result => ?_⟩
              cases result with
              | error error => exact fun _ impossible => by cases impossible
              | ok created =>
                  refine ⟨by simp [CallOp.Follows], fun _ => ?_⟩
                  exact keeps_saveAndReply (some created) rfl
  | remove name =>
      refine ⟨by simp [CallOp.Follows], fun result => ?_⟩
      cases result with
      | error error => exact fun _ impossible => by cases impossible
      | ok _ => exact keeps_saveAndReply none rfl

end

/-! ## The order of all calls -/

/-- What the state file would say now. -/
def current (serde : Serde) (site : Site) : String :=
  serde.toStringPretty site.registry.saved

/-- The text a program is about to write. -/
def nextText {α : Type} : CallProg α → Option String
  | .call (.write _ text) _ => some text
  | _ => none

/-- A step that writes the temporary file writes what the registry holds. -/
def WritesCurrent {ι : Type} (serde : Serde) (who : Option ι)
    (config : Config ι CallOp CallOp.Ans Empty Reply Site) : Prop :=
  ∀ i ∈ who, ∀ text ∈ nextText (config.threads i), text = current serde config.world

/-- What a served step does to a call's phase, to the registry and to the files. -/
theorem Site.serve_cases {site after : Site} {op : CallOp} {answer : op.Ans}
    (served : site.serve op answer = some after) (log : CallLog) :
    phase (⟨op, answer⟩ :: log) = .failed ∨
    phase (⟨op, answer⟩ :: log) = .changed ∨
    (phase (⟨op, answer⟩ :: log) = phase log ∧ after = site) ∨
    (∃ target text, op = .write target text ∧ phase (⟨op, answer⟩ :: log) = .written ∧
      after = { site with disk := Function.update site.disk target (some text) }) ∨
    (∃ source target text, op = .rename source target ∧ phase (⟨op, answer⟩ :: log) = .renamed ∧
      site.disk source = some text ∧
      after = { site with
        disk := Function.update (Function.update site.disk source none) target (some text) }) := by
  cases op with
  | findConfig name =>
      simp only [Site.serve] at served
      split at served
      · exact .inr (.inr (.inl ⟨rfl, (Option.some.inj served).symm⟩))
      · cases served
  | put name spec =>
      cases answer with
      | error error => exact .inl rfl
      | ok created => exact .inr (.inl rfl)
  | unpend name => exact .inr (.inl rfl)
  | removeEntry name =>
      cases answer with
      | error error => exact .inl rfl
      | ok _ => exact .inr (.inl rfl)
  | pendingSnapshot =>
      simp only [Site.serve] at served
      split at served
      · exact .inr (.inr (.inl ⟨rfl, (Option.some.inj served).symm⟩))
      · cases served
  | vipsSnapshot =>
      simp only [Site.serve] at served
      split at served
      · exact .inr (.inr (.inl ⟨rfl, (Option.some.inj served).symm⟩))
      · cases served
  | createParent path =>
      cases answer with
      | error error => exact .inl rfl
      | ok _ => exact .inr (.inr (.inl ⟨rfl, (Option.some.inj served).symm⟩))
  | write target text =>
      cases answer with
      | failed error left => exact .inl rfl
      | written =>
          exact .inr (.inr (.inr (.inl ⟨target, text, rfl, rfl, (Option.some.inj served).symm⟩)))
  | rename source target =>
      cases answer with
      | error error => exact .inl rfl
      | ok _ =>
          simp only [Site.serve] at served
          split at served
          · cases served
          · rename_i text there
            exact .inr (.inr (.inr (.inr
              ⟨source, target, text, rfl, rfl, there, (Option.some.inj served).symm⟩)))

/-- The temporary file, if it is there, says what the registry holds. -/
def TmpCurrent (serde : Serde) (path : String) (site : Site) : Prop :=
  ∀ text ∈ site.disk (withExtension path "tmp"), text = current serde site

/-- The state file holds the pending specs, and over them those of the running API VIPs. -/
def HoldsRegistry (serde : Serde) (path : String) (site : Site) : Prop :=
  ∃ state : State, site.disk path = some (serde.toStringPretty state) ∧
    ∀ name : String, state[name]? =
      match (site.registry.vips[name]? : Option Entry) with
      | some e => if e.fromConfig then site.registry.pending[name]? else some e.spec
      | none => site.registry.pending[name]?

theorem holdsRegistry_iff {serde : Serde} {path : String} {site : Site} :
    HoldsRegistry serde path site ↔ site.disk path = some (current serde site) := by
  constructor
  · rintro ⟨state, file, holds⟩
    have same : state = site.registry.saved := by
      refine Std.ExtTreeMap.ext_getElem? fun name => ?_
      rw [holds, Registry.saved, savedOver_getElem?]
    rw [file, same]
    rfl
  · intro file
    exact ⟨site.registry.saved, file, savedOver_getElem? _ _⟩

/-- How the calls together stand. -/
inductive Order {ι : Type} (serde : Serde) (path : String) (phases : ι → Phase) (site : Site) :
    Prop where
  | failed (i : ι) (fails : phases i = .failed)
  | untouched (fresh : ∀ i, phases i = .fresh)
  /-- Some change still has to be written. -/
  | unwritten (i : ι) (changed : phases i = .changed)
  /-- What the registry holds was written, and still has to be renamed. -/
  | unnamed (i : ι) (written : phases i = .written) (tmp : TmpCurrent serde path site)
  | saved (file : site.disk path = some (current serde site)) (tmp : TmpCurrent serde path site)

section

variable {ι : Type} [DecidableEq ι] {serde : Serde} {path : String}

/-- One step of a call that follows the order and writes what the registry holds. -/
theorem Order.step {phases : ι → Phase} {site after : Site} {i : ι} {op : CallOp}
    {answer : op.Ans} {log : CallLog} (own : phases i = phase log)
    (follows : op.Follows path log)
    (fresh : ∀ target text, op = .write target text → text = current serde site)
    (served : site.serve op answer = some after) (order : Order serde path phases site) :
    Order serde path (Function.update phases i (phase (⟨op, answer⟩ :: log))) after := by
  have others : ∀ j p, phases j = p → phase log ≠ p →
      Function.update phases i (phase (⟨op, answer⟩ :: log)) j = p := by
    intro j p same apart
    rw [Function.update_of_ne, same]
    intro here
    rw [here, own] at same
    exact apart same
  rcases site.serve_cases served log with failed | changed | ⟨same, rfl⟩ |
      ⟨target, text, rfl, written, rfl⟩ | ⟨source, target, text, rfl, renamed, there, rfl⟩
  · exact .failed i (by rw [Function.update_self, failed])
  · exact .unwritten i (by rw [Function.update_self, changed])
  · rw [same, ← own, Function.update_eq_self]
    exact order
  · -- What is written now is current, whatever was written before.
    obtain ⟨rfl, _⟩ := follows
    refine .unnamed i (by rw [Function.update_self, written]) fun left there => ?_
    have same : text = left := by simpa using there
    rw [← same]
    exact fresh _ text rfl
  · obtain ⟨rfl, rfl, written⟩ := follows
    -- With a current temporary file, the rename makes the state file current.
    have named : TmpCurrent serde target site → Order serde target
        (Function.update phases i (phase (⟨.rename (withExtension target "tmp") target, answer⟩ :: log)))
        { site with
          disk := Function.update (Function.update site.disk (withExtension target "tmp") none) target
            (some text) } := by
      intro tmp
      have isCurrent : text = current serde site := tmp text there
      have named := (Function.update_self target (some text)
        (Function.update site.disk (withExtension target "tmp") none)).trans (congrArg some isCurrent)
      refine .saved named fun left left_mem => ?_
      by_cases here : withExtension target "tmp" = target
      · have same : text = left := by simpa [here] using left_mem
        rw [← same]
        exact isCurrent
      · simp [here] at left_mem
    cases order with
    | failed j fails => exact .failed j (others j _ fails (by simp [written]))
    | untouched fresh => simp [written, fresh] at own
    | unwritten j changed => exact .unwritten j (others j _ changed (by simp [written]))
    | unnamed j _ tmp => exact named tmp
    | saved _ tmp => exact named tmp

variable {requests : ι → Request} {start : Site}
  {config : Config ι CallOp CallOp.Ans Empty Reply Site}
  {allowed : Option ι → Config ι CallOp CallOp.Ans Empty Reply Site → Prop}

/-- In every interleaving each call follows the order. -/
theorem keeps_call (reached : Threads.Reaches (callThreads serde (some path) requests) allowed
      ((callThreads serde (some path) requests).initial start) config) (i : ι) :
    Program.Keeps (CallOp.Follows path) (LoopPost (fun _ _ => False) Renamed)
      (config.threads i) (config.histories i) := by
  refine (reached.solo i).keeps ?_ fun state => state.elim
  exact (keeps_steps (requests i)).bind fun reply log renamed => renamed

def InOrder (serde : Serde) (path : String)
    (config : Config ι CallOp CallOp.Ans Empty Reply Site) : Prop :=
  Order serde path (fun i => phase (config.histories i)) config.world

/-- While every save writes what the registry holds, the calls together stand in order. -/
theorem order_of_reaches
    (reached : Threads.Reaches (callThreads serde (some path) requests) (WritesCurrent serde)
      ((callThreads serde (some path) requests).initial start) config) :
    InOrder serde path config := by
  refine reached.invariant ?_ ?_
  · exact .untouched fun _ => rfl
  intro who config after reached order admitted stepped
  cases stepped with
  | @turn _ i state looped => exact state.elim
  | drift moved =>
      obtain ⟨env, rfl⟩ := moved
      cases order with
      | failed i fails => exact .failed i fails
      | untouched fresh => exact .untouched fresh
      | unwritten i changed => exact .unwritten i changed
      | unnamed i written tmp => exact .unnamed i written tmp
      | saved file tmp => exact .saved file tmp
  | @call _ i op next world answer waiting served =>
      have keeps := keeps_call reached i
      rw [waiting] at keeps
      have writes : ∀ target text, op = .write target text →
          text = current serde config.world := by
        rintro target text rfl
        exact admitted i rfl text (by rw [waiting]; rfl)
      have stepped := order.step (i := i) rfl keeps.1 writes served
      have phases : (fun j => phase ((config.advance i (next answer) ⟨op, answer⟩ world).histories j)) =
          Function.update (fun j => phase (config.histories j)) i
            (phase (⟨op, answer⟩ :: config.histories i)) :=
        Function.comp_update phase config.histories i _
      rw [InOrder, phases]
      exact stepped

/--
When every save wrote what the registry then held and all calls returned `Ok`,
the state file holds the pending specs and over them those of the API VIPs.
-/
theorem holdsRegistry_of_writesCurrent [Nonempty ι]
    (reached : Threads.Reaches (callThreads serde (some path) requests) (WritesCurrent serde)
      ((callThreads serde (some path) requests).initial start) config)
    (returned : ∀ i, ∃ created, config.threads i = .done (.inr (.ok created))) :
    HoldsRegistry serde path config.world := by
  have renamed : ∀ i, phase (config.histories i) = .renamed := by
    intro i
    obtain ⟨created, ended⟩ := returned i
    have keeps := keeps_call reached i
    rw [ended] at keeps
    exact keeps created rfl
  cases order_of_reaches reached with
  | failed i fails => simp [renamed] at fails
  | untouched fresh =>
      obtain ⟨i⟩ := ‹Nonempty ι›
      simp [renamed] at fresh
  | unwritten i changed => simp [renamed] at changed
  | unnamed i written _ => simp [renamed] at written
  | saved file _ => exact holdsRegistry_iff.mpr file

end

/-! ## A stale snapshot -/

/-- One VIP of the state file, everything but its address and port left out of its spec. -/
def prettyVip (vip : String × VipSpec) : String :=
  "    \"" ++ vip.1 ++ "\": \x7b\n      \"address\": \"" ++ vip.2.address ++
    "\",\n      \"port\": " ++ toString vip.2.port.toNat ++
    ",\n      \"backends\": [],\n      \"health\": \x7b\n        \"mode\": \"tcp\",\n" ++
    "        \"path\": \"/readyz\",\n        \"interval_secs\": 2,\n" ++
    "        \"timeout_secs\": 2,\n        \"expect_status\": [\n          200\n        ]\n" ++
    "      \x7d\n    \x7d"

/-- `serde_json` on such specs. -/
def pretty : Serde where
  toStringPretty vips :=
    "\x7b\n  \"vips\": \x7b\n" ++ ",\n".intercalate (vips.toList.map prettyVip) ++ "\n  \x7d\n\x7d"
  fromStr := fun _ => .error "EOF while parsing a value at line 1 column 0"

def stateFile : String :=
  "/data/stormlb/vips.json"

/-- Two connections create a VIP each. -/
def twoApplies : Bool → Request
  | false => .apply "a" { address := "10.0.0.1", port := 443 }
  | true => .apply "b" { address := "10.0.0.2", port := 443 }

/-- What a step is answered when no file operation fails of itself. -/
def honest {ι : Type} (_ : ι) (site : Site) (op : CallOp) : op.Ans :=
  match op with
  | .findConfig name => site.registry.fromConfigAt name
  | .put name spec => (site.registry.put site.env name spec false).1
  | .unpend _ => ()
  | .removeEntry name => (site.registry.removeEntry name).1
  | .pendingSnapshot => site.registry.pending
  | .vipsSnapshot => site.registry.vips
  | .createParent _ => .ok ()
  | .write .. => .written
  | .rename source _ =>
      if (site.disk source).isSome then .ok ()
      else .error "No such file or directory (os error 2)"

def twoCalls : Threads Bool CallOp CallOp.Ans Empty Reply Site :=
  callThreads pretty (some stateFile) twoApplies

def emptySite : Site where
  registry := Registry.new (some stateFile)
  disk := fun _ => none
  env := freeNode

instance {ι : Type} (serde : Serde) (who : Option ι)
    (config : Config ι CallOp CallOp.Ans Empty Reply Site) :
    Decidable (WritesCurrent serde who config) :=
  inferInstanceAs (Decidable (∀ i ∈ who, ∀ text ∈ nextText (config.threads i), _))

def afterCalls (allowed : Option Bool → Config Bool CallOp CallOp.Ans Empty Reply Site → Prop)
    [∀ who config, Decidable (allowed who config)] (schedule : List Bool) :
    Config Bool CallOp CallOp.Ans Empty Reply Site :=
  twoCalls.playSchedule allowed honest (twoCalls.initial emptySite) schedule

/-- A call that has returned `Ok`. -/
def returnedOk : CallProg (Empty ⊕ Reply) → Bool
  | .done (.inr (.ok _)) => true
  | _ => false

theorem exists_of_returnedOk {program : CallProg (Empty ⊕ Reply)} (ok : returnedOk program = true) :
    ∃ created, program = .done (.inr (.ok created)) := by
  unfold returnedOk at ok
  split at ok
  · exact ⟨_, rfl⟩
  · cases ok

/-- The first call has taken its snapshots when the second one creates, saves and returns. -/
def staleSchedule : List Bool :=
  List.replicate 5 false ++ List.replicate 8 true ++ List.replicate 3 false

/-- The VIP that was created and saved meanwhile is not in the state file any more. -/
theorem stale_snapshot_loses_vip :
    ¬ ∀ (ι : Type) (_ : DecidableEq ι) (_ : Nonempty ι) (serde : Serde) (path : String)
      (requests : ι → Request) (start : Site)
      (config : Config ι CallOp CallOp.Ans Empty Reply Site),
      Threads.Reaches (callThreads serde (some path) requests) Threads.anySchedule
          ((callThreads serde (some path) requests).initial start) config →
        (∀ i, ∃ created, config.threads i = .done (.inr (.ok created))) →
          HoldsRegistry serde path config.world := by
  intro holds
  have file := holdsRegistry_iff.mp (holds Bool inferInstance inferInstance pretty stateFile
    twoApplies emptySite (afterCalls Threads.anySchedule staleSchedule)
    (Threads.Reaches.playSchedule honest staleSchedule .start)
    fun i => exists_of_returnedOk (by cases i <;> decide +kernel))
  exact absurd file (by decide +kernel)

theorem holdsRegistry_of_writesCurrent_oneByOne :
    HoldsRegistry pretty stateFile (afterCalls (WritesCurrent pretty)
      (List.replicate 8 false ++ List.replicate 8 true)).world :=
  holdsRegistry_of_writesCurrent (Threads.Reaches.playSchedule honest _ .start)
    fun i => exists_of_returnedOk (by cases i <;> decide +kernel)

end StormLb.Vips
