import StormLb.Vips.SaveOrder

/-!
# Calls one at a time

A call that runs alone does to the registry what `apply` or `remove` does, and
to the state file what its save does: `Ok` means that the file holds the
registry, and any other reply that the file is what it was.
-/

namespace StormLb.Vips

open StormLb.Effects

/-- A request, and what the node answers while it runs. -/
structure Call where
  request : Request
  env : Environment
  createParent : Except String Unit
  write : Written
  rename : Except String Unit

/-- The answer to a step of a call. -/
def Call.reply (call : Call) (site : Site) : (op : CallOp) → op.Ans
  | .findConfig name => site.registry.fromConfigAt name
  | .put name spec => (site.registry.put site.env name spec false).1
  | .unpend _ => ()
  | .removeEntry name => (site.registry.removeEntry name).1
  | .pendingSnapshot => site.registry.pending
  | .vipsSnapshot => site.registry.vips
  | .createParent _ => call.createParent
  | .write .. => call.write
  | .rename source _ =>
      if (site.disk source).isSome then call.rename
      else .error "No such file or directory (os error 2)"

/-- The answer to a step of a call, and what it leaves behind. -/
def Call.answer (call : Call) (site : Site) (op : CallOp) : op.Ans × Site :=
  (call.reply site op, (site.serve op (call.reply site op)).getD site)

/-- One call from beginning to end. -/
def Site.call (site : Site) (serde : Serde) (call : Call) : Reply × Site :=
  (call.request.steps serde site.registry.stateFile).serve call.answer { site with env := call.env }

/-- One call after the other: what each returned, and what they leave. -/
def Site.calls (site : Site) (serde : Serde) : List Call → List (Call × Reply) × Site
  | [] => ([], site)
  | call :: rest =>
      let (reply, site) := site.call serde call
      let (log, site) := site.calls serde rest
      ((call, reply) :: log, site)

/-- What returned was called. -/
theorem mem_of_calls {site : Site} {serde : Serde} {calls : List Call} {entry : Call × Reply}
    (member : entry ∈ (site.calls serde calls).1) : entry.1 ∈ calls := by
  induction calls generalizing site with
  | nil => cases member
  | cons call rest ih =>
      rcases List.mem_cons.mp member with rfl | later
      · exact List.mem_cons_self
      · exact List.mem_cons_of_mem _ (ih later)

section

variable {call : Call} {site : Site} {serde : Serde}

/-! ## What a `put` leaves to save -/

/-- A name is saved as it was when its entry keeps spec and source, and its pending spec stays. -/
theorem saved_getElem?_congr {r after : Registry} {name : String}
    (vips : after.vips[name]?.map (fun e => (e.spec, e.fromConfig)) =
      r.vips[name]?.map fun e => (e.spec, e.fromConfig))
    (pending : after.pending[name]? = r.pending[name]?) : after.saved[name]? = r.saved[name]? := by
  rw [Registry.saved, Registry.saved, savedOver_getElem?, savedOver_getElem?, pending]
  cases before : (r.vips[name]? : Option Entry) with
  | none =>
      rw [before, Option.map_none, Option.map_eq_none_iff] at vips
      rw [vips]
  | some e =>
      rw [before, Option.map_some, Option.map_eq_some_iff] at vips
      obtain ⟨e', present, same⟩ := vips
      obtain ⟨spec, source⟩ := Prod.mk.inj same
      rw [present]
      dsimp only
      rw [spec, source]

/-- A served API VIP is saved with its spec. -/
theorem saved_of_serving {r : Registry} {name : String} {e : Entry}
    (present : r.vips[name]? = some e) (api : e.fromConfig = false) :
    r.saved[name]? = some e.spec := by
  rw [Registry.saved, savedOver_getElem?, present]
  simp [api]

/-- A `put` that is refused leaves to save what was there. -/
theorem saved_of_put_error {r after : Registry} {env : Environment} {name : String}
    {spec : VipSpec} {fromConfig : Bool} {error : ApplyError}
    (refused : r.put env name spec fromConfig = (.error error, after)) :
    after.saved = r.saved := by
  have outcome := r.put_outcome env name spec fromConfig
  rw [refused] at outcome
  cases outcome with
  | refused _ _ => rfl
  | halfway admits _ same =>
      rename_i c e message
      refine Std.ExtTreeMap.ext_getElem? fun other => saved_getElem?_congr ?_ (by rw [same.pending])
      rw [same.getElem?]
      by_cases here : other = name
      · rw [if_pos here, here, admits.present]
        simp [Entry.halfway]
      · rw [if_neg here]

/-- A `put` that succeeds serves the spec. -/
theorem serving_of_put_ok {r after : Registry} {env : Environment} {name : String}
    {spec : VipSpec} {created : Bool} (api : r.fromConfigAt name = false)
    (put : r.put env name spec false = (.ok created, after)) :
    ∃ e, after.vips[name]? = some e ∧ e.fromConfig = false ∧ e.spec = spec := by
  have outcome := r.put_outcome env name spec false
  rw [put] at outcome
  cases outcome with
  | updated admits _ replaces same =>
      refine ⟨_, by rw [same.getElem?, if_pos rfl], ?_, replaces.setsSpec⟩
      rw [Registry.fromConfigAt, admits.present] at api
      rw [replaces.keepsSource]
      exact api
  | created _ _ _ made same =>
      exact ⟨_, by rw [same.getElem?, if_pos rfl], made.setsSource, made.setsSpec⟩

/-! ## The steps that a call takes alone -/

@[simp] theorem answer_findConfig (name : String) :
    call.answer site (.findConfig name) = (site.registry.fromConfigAt name, site) := by
  simp [Call.answer, Call.reply, Site.serve]

@[simp] theorem answer_put (name : String) (spec : VipSpec) :
    call.answer site (.put name spec) =
      ((site.registry.put site.env name spec false).1,
        { site with registry := (site.registry.put site.env name spec false).2 }) := by
  simp [Call.answer, Call.reply, Site.serve]

@[simp] theorem answer_unpend (name : String) :
    call.answer site (.unpend name) =
      ((), { site with
        registry := { site.registry with pending := site.registry.pending.erase name } }) :=
  rfl

@[simp] theorem answer_removeEntry (name : String) :
    call.answer site (.removeEntry name) =
      ((site.registry.removeEntry name).1,
        { site with registry := (site.registry.removeEntry name).2 }) := by
  simp [Call.answer, Call.reply, Site.serve]

@[simp] theorem answer_pendingSnapshot :
    call.answer site .pendingSnapshot = (site.registry.pending, site) := by
  simp [Call.answer, Call.reply, Site.serve]

@[simp] theorem answer_vipsSnapshot :
    call.answer site .vipsSnapshot = (site.registry.vips, site) := by
  simp [Call.answer, Call.reply, Site.serve]

@[simp] theorem answer_createParent (path : String) :
    call.answer site (.createParent path) = (call.createParent, site) :=
  rfl

@[simp] theorem answer_write (path text : String) :
    call.answer site (.write path text) =
      (call.write, match call.write with
        | .written => { site with disk := Function.update site.disk path (some text) }
        | .failed _ left => { site with disk := Function.update site.disk path left }) := by
  unfold Call.answer Call.reply
  cases call.write <;> rfl

/-- Renaming a file that is there moves it, or fails. -/
theorem answer_rename {source target text : String} (there : site.disk source = some text) :
    call.answer site (.rename source target) =
      (call.rename, match call.rename with
        | .ok () =>
            { site with
              disk := Function.update (Function.update site.disk source none) target (some text) }
        | .error _ => site) := by
  have replied : call.reply site (.rename source target) = call.rename := by
    simp [Call.reply, there]
  rw [Call.answer, replied]
  cases call.rename with
  | error error => rfl
  | ok _ => simp [Site.serve, there]

/-- How writing a file ended, seen from the state file. -/
inductive Filed (path text : String) (site after : Site) : Except String Unit → Prop where
  | filed (holds : after.disk path = some text) : Filed path text site after (.ok ())
  | failed (error : String) (same : withExtension path "tmp" ≠ path → after.disk path = site.disk path) :
      Filed path text site after (.error error)

/-- The file is replaced as a whole, or, when it is not its own temporary file, not at all. -/
theorem serve_writeAtomic (call : Call) (site : Site) (path text : String) :
    ((writeAtomic path text).serve call.answer site).2.registry = site.registry ∧
      Filed path text site ((writeAtomic path text).serve call.answer site).2
        ((writeAtomic path text).serve call.answer site).1 := by
  have kept (left : Option String) (apart : withExtension path "tmp" ≠ path) :
      Function.update site.disk (withExtension path "tmp") left path = site.disk path :=
    Function.update_of_ne apart.symm _ _
  unfold writeAtomic
  simp only [step_eq, Program.bind_eq, Program.call_bind, Program.done_bind, Program.serve_call,
    answer_createParent]
  cases call.createParent with
  | error error => exact ⟨rfl, .failed error fun _ => rfl⟩
  | ok _ =>
      dsimp only
      rw [Program.serve_call, answer_write]
      cases call.write with
      | failed error left => exact ⟨rfl, .failed _ (kept left)⟩
      | written =>
          dsimp only
          rw [Program.serve_call, answer_rename (Function.update_self _ _ _)]
          cases call.rename with
          | error error => exact ⟨rfl, .failed _ (kept (some text))⟩
          | ok _ => exact ⟨rfl, .filed (Function.update_self _ _ _)⟩

/-- What the save of a call returns, and what it leaves. -/
inductive Saves (serde : Serde) (site after : Site) : Except ApplyError Unit → Prop where
  | unsaved (nowhere : site.registry.stateFile = none) (same : after.disk = site.disk) :
      Saves serde site after (.ok ())
  | saved (path : String) (there : site.registry.stateFile = some path)
      (holds : after.disk path = some (current serde site)) : Saves serde site after (.ok ())
  | failed (path error : String) (there : site.registry.stateFile = some path)
      (same : withExtension path "tmp" ≠ path → after.disk path = site.disk path) :
      Saves serde site after (.error (.notSaved path error))

theorem serve_saveSteps (serde : Serde) (call : Call) (site : Site) :
    ((saveSteps serde site.registry.stateFile).serve call.answer site).2.registry = site.registry ∧
      Saves serde site ((saveSteps serde site.registry.stateFile).serve call.answer site).2
        ((saveSteps serde site.registry.stateFile).serve call.answer site).1 := by
  unfold saveSteps
  cases there : site.registry.stateFile with
  | none => exact ⟨rfl, .unsaved there rfl⟩
  | some path =>
      simp only [step_eq, Program.bind_eq, Program.call_bind, Program.done_bind, Program.serve_call,
        answer_pendingSnapshot, answer_vipsSnapshot]
      rw [Program.serve_bind]
      have ended := serve_writeAtomic call site path
        (serde.toStringPretty (savedOver site.registry.pending site.registry.vips))
      generalize (writeAtomic path (serde.toStringPretty
        (savedOver site.registry.pending site.registry.vips))).serve call.answer site = written at ended ⊢
      obtain ⟨result, after⟩ := written
      obtain ⟨registry, filed⟩ := ended
      cases filed with
      | filed holds => exact ⟨registry, .saved path there holds⟩
      | failed error same => exact ⟨registry, .failed path error there same⟩

/-- After its change to the registry, a call saves and replies. -/
theorem serve_saveAndReply (serde : Serde) (call : Call) (site : Site) (reply : Option Bool) :
    ∃ result, Saves serde site
        ((saveAndReply serde site.registry.stateFile reply).serve call.answer site).2 result ∧
      ((saveAndReply serde site.registry.stateFile reply).serve call.answer site).1 =
        result.map (fun _ => reply) ∧
      ((saveAndReply serde site.registry.stateFile reply).serve call.answer site).2.registry =
        site.registry := by
  have ended := serve_saveSteps serde call site
  unfold saveAndReply
  rw [Program.bind_eq, Program.serve_bind]
  generalize (saveSteps serde site.registry.stateFile).serve call.answer site = saved at ended ⊢
  obtain ⟨result, after⟩ := saved
  obtain ⟨registry, saves⟩ := ended
  refine ⟨result, ?_⟩
  cases result with
  | error error => exact ⟨saves, rfl, registry⟩
  | ok _ => exact ⟨saves, rfl, registry⟩

/-! ## One call -/

/-- The registry's part of a call. -/
def Call.operation (serde : Serde) (call : Call) : Operation :=
  match call.request with
  | .apply name spec => .apply serde call.env (fun _ _ => .ok ()) name spec
  | .remove name => .remove serde (fun _ _ => .ok ()) name

/-- The name a request is about. -/
def Request.name : Request → String
  | .apply name _ => name
  | .remove name => name

/-- What one call does. -/
inductive Called (serde : Serde) (call : Call) (site after : Site) : Reply → Prop where
  /-- It is refused, and leaves to save what was there. -/
  | refused (error : ApplyError) (saved : after.registry.saved = site.registry.saved)
      (stateFile : after.registry.stateFile = site.registry.stateFile)
      (disk : after.disk = site.disk) : Called serde call site after (.error error)
  /-- It changes the registry, and saves it. -/
  | changed (changed : Site) (result : Except ApplyError Unit) (made : Option Bool)
      (registry : after.registry = changed.registry) (disk : changed.disk = site.disk)
      (stateFile : changed.registry.stateFile = site.registry.stateFile)
      (saves : Saves serde changed after result)
      (others : ∀ other, other ≠ call.request.name →
        changed.registry.saved[other]? = site.registry.saved[other]?)
      (applied : ∀ name spec, call.request = .apply name spec →
        changed.registry.saved[name]? = some spec) :
      Called serde call site after (result.map fun _ => made)

/-- What a call does, and that the registry's part of it is `apply` or `remove`. -/
def Calls (serde : Serde) (call : Call) (site : Site) (ended : Reply × Site) : Prop :=
  Called serde call site ended.2 ended.1 ∧
    ended.2.registry = site.registry.run (call.operation serde)

/-- Changing the registry and saving is one way a call goes. -/
theorem calls_of_change (change : Site) {made : Option Bool} (disk : change.disk = site.disk)
    (stateFile : change.registry.stateFile = site.registry.stateFile)
    (others : ∀ other, other ≠ call.request.name →
      change.registry.saved[other]? = site.registry.saved[other]?)
    (applied : ∀ name spec, call.request = .apply name spec →
      change.registry.saved[name]? = some spec)
    (runs : change.registry = site.registry.run (call.operation serde)) :
    Calls serde call site
      ((saveAndReply serde change.registry.stateFile made).serve call.answer change) := by
  obtain ⟨result, saves, reply, registry⟩ := serve_saveAndReply serde call change made
  refine ⟨?_, registry.trans runs⟩
  rw [reply]
  exact .changed change result made registry disk stateFile saves others applied

theorem calls_apply {name : String} {spec : VipSpec} (request : call.request = .apply name spec) :
    Calls serde call site (site.call serde call) := by
  have operation : call.operation serde = .apply serde call.env (fun _ _ => .ok ()) name spec := by
    rw [Call.operation, request]
  rw [Site.call, request, Request.steps, applySteps]
  cases named : validName name with
  | error error =>
      refine ⟨.refused error rfl rfl rfl, ?_⟩
      rw [operation, Registry.run, Registry.apply, named]
      rfl
  | ok _ =>
      simp only [step_eq, Program.bind_eq, Program.call_bind, Program.done_bind, Program.serve_call,
        answer_findConfig]
      cases api : site.registry.fromConfigAt name with
      | true =>
          refine ⟨.refused _ rfl rfl rfl, ?_⟩
          rw [operation, Registry.run, Registry.apply, named]
          simp [api]
      | false =>
          simp only [Bool.false_eq_true, if_false, Program.serve_call, answer_put]
          obtain ⟨others, pending, stateFile⟩ := site.registry.put_frame call.env name spec false
          cases put : site.registry.put call.env name spec false with
          | mk result after =>
              rw [put] at others pending stateFile
              cases result with
              | error error =>
                  refine ⟨.refused error (saved_of_put_error put) stateFile rfl, ?_⟩
                  rw [operation, Registry.run, Registry.apply, named]
                  simp [api, put]
              | ok created =>
                  obtain ⟨e, present, source, set⟩ := serving_of_put_ok api put
                  simp only [Program.serve_call, answer_unpend]
                  rw [← stateFile]
                  refine calls_of_change ⟨{ after with pending := after.pending.erase name },
                    site.disk, call.env⟩ rfl stateFile ?_ ?_ ?_
                  · rw [request]
                    intro other (apart : other ≠ name)
                    have erased : (after.pending.erase name)[other]? = after.pending[other]? :=
                      Registry.getElem?_erase_of_ne apart
                    exact saved_getElem?_congr (by rw [others other apart])
                      (erased.trans (by rw [← pending]))
                  · rw [request]
                    rintro _ _ ⟨⟩
                    rw [← set]
                    exact saved_of_serving present source
                  · rw [operation, Registry.run, Registry.apply, named]
                    simp [api, put]

theorem calls_remove {name : String} (request : call.request = .remove name) :
    Calls serde call site (site.call serde call) := by
  have operation : call.operation serde = .remove serde (fun _ _ => .ok ()) name := by
    rw [Call.operation, request]
  rw [Site.call, request, Request.steps, removeSteps]
  simp only [step_eq, Program.bind_eq, Program.call_bind, Program.done_bind, Program.serve_call,
    answer_removeEntry]
  have entry : (site.registry.remove serde (fun _ _ => .ok ()) name).2 =
      (site.registry.removeEntry name).2 := by
    unfold Registry.remove
    split <;> simp [*]
  rw [Registry.removeEntry] at entry ⊢
  cases present : site.registry.vips[name]? with
  | none =>
      simp only [present] at entry
      dsimp only
      by_cases pends : name ∈ site.registry.pending
      · rw [if_pos pends] at entry ⊢
        refine calls_of_change ⟨{ site.registry with
          pending := site.registry.pending.erase name }, site.disk, call.env⟩ rfl rfl ?_ ?_ ?_
        · rw [request]
          intro other (apart : other ≠ name)
          exact saved_getElem?_congr rfl (Registry.getElem?_erase_of_ne apart)
        · rw [request]
          rintro _ _ ⟨⟩
        · rw [operation]
          exact entry.symm
      · rw [if_neg pends] at entry ⊢
        refine ⟨.refused _ rfl rfl rfl, ?_⟩
        rw [operation]
        exact entry.symm
  | some e =>
      simp only [present] at entry
      dsimp only
      cases source : e.fromConfig with
      | true =>
          refine ⟨.refused _ rfl rfl rfl, ?_⟩
          rw [operation]
          rw [source] at entry
          exact entry.symm
      | false =>
          rw [source] at entry
          let change : Site := ⟨{ site.registry with
            vips := site.registry.vips.erase name }.dropEntry e, site.disk, call.env⟩
          change Calls serde call site
            ((saveAndReply serde change.registry.stateFile none).serve call.answer change)
          refine calls_of_change change rfl rfl ?_ ?_ ?_
          · rw [request]
            intro other (apart : other ≠ name)
            refine saved_getElem?_congr ?_ rfl
            exact congrArg _ (Registry.getElem?_erase_of_ne apart)
          · rw [request]
            rintro _ _ ⟨⟩
          · rw [operation]
            exact entry.symm

theorem calls (serde : Serde) (call : Call) (site : Site) :
    Calls serde call site (site.call serde call) := by
  cases request : call.request with
  | apply name spec => exact calls_apply request
  | remove name => exact calls_remove request

end

end StormLb.Vips
