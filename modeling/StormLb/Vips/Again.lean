import StormLb.Vips.Calls

/-!
# Applying a spec again

An entry that a spec was just put on has everything the spec says.  Putting it
again touches nothing but the checker's permit, and what is saved is the same.
-/

namespace StormLb.Vips

open StormLb.Effects StormLb.Health

/-- The health loop's next wait ends at once. -/
def Entry.woken (e : Entry) : Entry :=
  { e with checker := { e.checker with wake := true } }

/-- Only the VIP's health loop is woken. -/
def Registry.wake (r : Registry) (name : String) : Registry :=
  r.background name Entry.woken

/-- A node that reads the CA files and builds clients as another. -/
def Environment.ReadsAs (env other : Environment) : Prop :=
  ∀ spec, client env.first spec = client other.first spec ∧
    client env.second spec = client other.first spec

/-- The node writes the state file. -/
structure Call.CanSave (call : Call) : Prop where
  createParent : call.createParent = .ok ()
  write : call.write = .written
  rename : call.rename = .ok ()

/-! ## What a `put` leaves to do -/

/-- The entry is as the checked spec has it. -/
structure Entry.Fits (e : Entry) (env : Environment) (spec : VipSpec) (c : Checked) : Prop where
  hasSpec : e.spec = spec
  listens : e.listen = c.listen
  members : c.backends.eraseDups = e.pool.addrs
  checks : e.checker.spec = spec.health
  loaded : client env.first spec.health = .ok e.checker.client

/-- The name's entry is as the spec has it, and no other VIP listens there. -/
def Registry.Settled (r : Registry) (env : Environment) (name : String) (spec : VipSpec) : Prop :=
  ∃ c e, check spec = .ok c ∧ r.vips[name]? = some e ∧ r.conflict name c.listen = none ∧
    e.Fits env spec c

section

variable {r after : Registry} {env again : Environment} {name : String} {spec : VipSpec} {c : Checked}
  {e : Entry}

theorem create_fits {created fromConfig : Bool}
    (put : r.create env name spec fromConfig c = (.ok created, after)) :
    ∃ e, r.SameBesides name e after ∧ e.Fits env spec c := by
  unfold Registry.create at put
  cases built : Checker.new env.first spec.health with
  | error message =>
      rw [built] at put
      cases put
  | ok checker =>
      rw [built] at put
      dsimp only [Vips.health] at put
      cases bound : bind env c.listen with
      | error error =>
          rw [bound] at put
          cases put
      | ok _ =>
          rw [bound] at put
          cases put
          refine ⟨_, Registry.setEntry_sameBesides name _ rfl rfl rfl, rfl, rfl, ?_, ?_, ?_⟩
          · exact (Pool.new_addrs c.backends).symm
          · exact Checker.new_eq_ok built
          · exact Checker.new_client built

theorem update_fits {created : Bool} (steady : env.Steady)
    (put : r.update env name spec c e = (.ok created, after)) :
    ∃ e, r.SameBesides name e after ∧ e.Fits env spec c := by
  unfold Registry.update at put
  cases loads : healthOk env.first spec.health with
  | error error =>
      rw [loads] at put
      cases put
  | ok _ =>
      rw [loads] at put
      dsimp only at put
      rcases r.moveListener_cases env c.listen e with ⟨_, message, _, refuses⟩ |
          ⟨_, moved, moves, vips, pending, stateFile⟩
      · rw [refuses] at put
        cases put
      · rw [moves] at put
        dsimp only at put
        cases set : (e.moved r.started c.listen).checker.setSpec env.second spec.health with
        | error message =>
            rw [set] at put
            cases put
        | ok checker =>
            rw [set] at put
            dsimp only [Vips.health] at put
            obtain ⟨vrrp, _, entry, vips', pending', stateFile'⟩ := moved.changeVrrp_cases spec
              c.vrrpVip { e.moved r.started c.listen with
                pool := (e.moved r.started c.listen).pool.setAddrs c.backends, checker }
            rw [entry] at put
            cases put
            obtain ⟨client, builds, rfl⟩ := Checker.setSpec_eq_ok_iff.mp set
            refine ⟨_, Registry.setEntry_sameBesides name _ (vips'.trans vips) (pending'.trans pending)
              (stateFile'.trans stateFile), rfl, ?_, ?_, rfl, ?_⟩
            · exact e.moved_listen r.started c.listen
            · exact (Pool.setAddrs_addrs _ c.backends).symm
            · rw [steady]
              exact builds

/-- A `put` that succeeds settles its name. -/
theorem put_settled {created : Bool} (steady : env.Steady)
    (put : r.put env name spec false = (.ok created, after)) : after.Settled env name spec := by
  unfold Registry.put at put
  cases checked : check spec with
  | error error =>
      rw [checked] at put
      cases put
  | ok c =>
      rw [checked] at put
      dsimp only at put
      cases free : r.conflict name c.listen with
      | some other =>
          rw [free] at put
          cases put
      | none =>
          rw [free] at put
          dsimp only at put
          obtain ⟨e, same, fits⟩ : ∃ e, r.SameBesides name e after ∧ e.Fits env spec c := by
            cases present : r.vips[name]? with
            | some e =>
                rw [present] at put
                exact update_fits steady put
            | none =>
                rw [present] at put
                exact create_fits put
          refine ⟨c, e, checked, by rw [same.getElem?, if_pos rfl], ?_, fits⟩
          refine Registry.conflict_eq_none_iff.mpr fun other e' present listens => ?_
          rw [same.getElem?] at present
          split at present
          · rename_i here
            exact here
          · exact Registry.conflict_eq_none_iff.mp free other e' present listens

/-- On a settled name a `put` wakes the health loop, whatever `bind` would answer. -/
theorem put_of_settled (settled : r.Settled env name spec) (reads : again.ReadsAs env) :
    r.put again name spec false = (.ok false, r.wake name) := by
  obtain ⟨c, e, checked, present, free, fits⟩ := settled
  have first : client again.first spec.health = .ok e.checker.client :=
    (reads spec.health).1.trans fits.loaded
  have second : client again.second spec.health = .ok e.checker.client :=
    (reads spec.health).2.trans fits.loaded
  have set : e.checker.setSpec again.second spec.health =
      .ok { e.checker with wake := true } := by
    refine Checker.setSpec_eq_ok_iff.mpr ⟨_, second, ?_⟩
    rw [← fits.checks]
  have unmoved : r.moveListener again c.listen e = .ok (e, r) :=
    if_neg fun moves => moves fits.listens.symm
  have members : e.pool.setAddrs c.backends = e.pool :=
    (Pool.setAddrs_eq_self_iff _ _).mpr fits.members
  have unchanged (other : Entry) (same : other.spec = e.spec) :
      r.changeVrrp spec c.vrrpVip other = (other, r) := by
    refine if_neg ?_
    rw [same, fits.hasSpec]
    simp
  unfold Registry.put Registry.update healthOk
  simp only [checked, free, present, first, unmoved, members, set, Vips.health]
  rw [unchanged { e with checker := { e.checker with wake := true } } rfl, Registry.wake,
    Registry.background, present, ← fits.hasSpec]
  rfl

theorem wake_stateFile : (r.wake name).stateFile = r.stateFile := by
  unfold Registry.wake Registry.background
  split
  · rfl
  · rfl

theorem wake_pending : (r.wake name).pending = r.pending := by
  unfold Registry.wake Registry.background
  split
  · rfl
  · rfl

/-- A wake leaves to save what was there. -/
theorem wake_saved : (r.wake name).saved = r.saved := by
  refine Std.ExtTreeMap.ext_getElem? fun other => saved_getElem?_congr ?_ ?_
  · unfold Registry.wake Registry.background
    cases present : r.vips[name]? with
    | none => rfl
    | some e =>
        dsimp only
        rw [(Registry.setEntry_sameBesides name _ rfl rfl rfl).getElem?]
        by_cases here : other = name
        · rw [if_pos here, here, present]
          rfl
        · rw [if_neg here]
  · rw [wake_pending]

theorem erase_erase {pending : State} : (pending.erase name).erase name = pending.erase name := by
  refine Std.ExtTreeMap.ext_getElem? fun other => ?_
  rw [Std.ExtTreeMap.getElem?_erase]
  split
  · rename_i here
    rw [Std.ExtTreeMap.getElem?_erase, if_pos here]
  · rfl

/-- Settling is about the entries only. -/
theorem Registry.Settled.congr (settled : r.Settled env name spec) (vips : after.vips = r.vips) :
    after.Settled env name spec := by
  obtain ⟨c, e, checked, present, free, fits⟩ := settled
  refine ⟨c, e, checked, by rw [vips, present], ?_, fits⟩
  unfold Registry.conflict
  rw [vips]
  exact free

end

/-! ## The calls -/

section

variable {serde : Serde} {site : Site} {call again : Call} {name : String} {spec : VipSpec}

theorem serve_writeAtomic_ok (canSave : call.CanSave) (site : Site) (path text : String) :
    ((writeAtomic path text).serve call.answer site).1 = .ok () := by
  unfold writeAtomic
  simp only [step_eq, Program.bind_eq, Program.call_bind, Program.done_bind, Program.serve_call,
    answer_createParent, canSave.createParent]
  rw [answer_write, canSave.write]
  dsimp only
  rw [Program.serve_call, answer_rename (Function.update_self _ _ _), canSave.rename]
  rfl

/-- A state file that can be written is written. -/
theorem serve_saveAndReply_ok (serde : Serde) (canSave : call.CanSave) (site : Site) (stateFile : Option String)
    (reply : Option Bool) :
    ((saveAndReply serde stateFile reply).serve call.answer site).1 = .ok reply := by
  unfold saveAndReply saveSteps
  cases stateFile with
  | none => rfl
  | some path =>
      simp only [step_eq, Program.bind_eq, Program.call_bind, Program.done_bind, Program.serve_call,
        answer_pendingSnapshot, answer_vipsSnapshot]
      rw [Program.serve_bind, Program.serve_bind, serve_writeAtomic_ok canSave]
      rfl

/-- After an accepted `put` the call saves and replies. -/
theorem call_of_put {created : Bool} {after : Registry} (request : call.request = .apply name spec)
    (valid : validName name = .ok ()) (api : site.registry.fromConfigAt name = false)
    (put : site.registry.put call.env name spec false = (.ok created, after)) :
    site.call serde call =
      (saveAndReply serde after.stateFile (some created)).serve call.answer
        ⟨{ after with pending := after.pending.erase name }, site.disk, call.env⟩ := by
  have stateFile := (site.registry.put_frame call.env name spec false).2.2
  rw [put] at stateFile
  rw [Site.call, request, Request.steps, applySteps, valid]
  simp only [step_eq, Program.bind_eq, Program.call_bind, Program.done_bind, Program.serve_call,
    answer_findConfig, api, Bool.false_eq_true, if_false, answer_put, put, answer_unpend]
  rw [← stateFile]

/-- An `apply` that returns `Ok` was accepted. -/
theorem exists_put_of_ok {made : Option Bool} (request : call.request = .apply name spec)
    (ok : (site.call serde call).1 = .ok made) :
    validName name = .ok () ∧ site.registry.fromConfigAt name = false ∧
      ∃ created after, site.registry.put call.env name spec false = (.ok created, after) := by
  rw [Site.call, request, Request.steps, applySteps] at ok
  cases named : validName name with
  | error error =>
      rw [named] at ok
      cases ok
  | ok _ =>
      rw [named] at ok
      simp only [step_eq, Program.bind_eq, Program.call_bind, Program.done_bind, Program.serve_call,
        answer_findConfig] at ok
      cases api : site.registry.fromConfigAt name with
      | true =>
          rw [api] at ok
          cases ok
      | false =>
          rw [api] at ok
          simp only [Bool.false_eq_true, if_false, Program.serve_call, answer_put] at ok
          cases put : site.registry.put call.env name spec false with
          | mk result after =>
              rw [put] at ok
              cases result with
              | error error => cases ok
              | ok created => exact ⟨rfl, rfl, created, after, rfl⟩

/--
A spec that was applied, applied again in the same environment: `Ok(false)`, the
VIP's health loop woken, and nothing else changed, whatever `bind` would answer.
-/
theorem apply_again (serde : Serde) (site : Site) {call again : Call} {name : String}
    {spec : VipSpec} {made : Option Bool} (applies : call.request = .apply name spec)
    (repeats : again.request = .apply name spec) (steady : call.env.Steady)
    (reads : again.env.ReadsAs call.env) (canSave : again.CanSave)
    (ok : (site.call serde call).1 = .ok made) :
    ((site.call serde call).2.call serde again).1 = .ok (some false) ∧
      ((site.call serde call).2.call serde again).2.registry =
        (site.call serde call).2.registry.wake name ∧
      ∀ path, (site.call serde call).2.registry.stateFile = some path →
        ((site.call serde call).2.call serde again).2.disk path = (site.call serde call).2.disk path := by
  obtain ⟨valid, api, created, put, accepted⟩ := exists_put_of_ok applies ok
  have first : site.call serde call = _ := call_of_put applies valid api accepted
  obtain ⟨e, present, source, _⟩ := serving_of_put_ok api accepted
  have settled := put_settled steady accepted
  -- What the first call leaves: the settled registry, and it is in the state file.
  obtain ⟨result, saved, reply, registry⟩ := serve_saveAndReply serde call
    ⟨{ put with pending := put.pending.erase name }, site.disk, call.env⟩ (some created)
  rw [← first] at saved reply registry
  rw [ok] at reply
  generalize (site.call serde call).2 = done at saved registry ⊢
  have served : done.registry.fromConfigAt name = false := by
    rw [registry, Registry.fromConfigAt]
    simp [present, source]
  have settled : done.registry.Settled call.env name spec :=
    settled.congr (by rw [registry])
  have second : done.call serde again = _ :=
    call_of_put repeats valid served (put_of_settled settled reads)
  have unpended : { done.registry.wake name with
      pending := (done.registry.wake name).pending.erase name } = done.registry.wake name := by
    have erased : (done.registry.wake name).pending.erase name = (done.registry.wake name).pending := by
      rw [wake_pending, registry, erase_erase]
    rw [erased]
  rw [unpended] at second
  have replied := serve_saveAndReply_ok serde canSave
    ⟨done.registry.wake name, done.disk, again.env⟩ (done.registry.wake name).stateFile (some false)
  obtain ⟨result', saved', reply', registry'⟩ := serve_saveAndReply serde again
    ⟨done.registry.wake name, done.disk, again.env⟩ (some false)
  rw [← second] at replied saved' reply' registry'
  refine ⟨replied, registry', fun path there => ?_⟩
  rw [replied] at reply'
  cases result with
  | error error => cases reply
  | ok _ =>
      cases result' with
      | error error => cases reply'
      | ok _ =>
          rw [registry] at there
          have filed : done.disk path = some (serde.toStringPretty done.registry.saved) := by
            rw [registry]
            cases saved with
            | unsaved nowhere _ =>
                rw [there] at nowhere
                cases nowhere
            | saved other here holds =>
                obtain rfl := Option.some.inj (here.symm.trans there)
                exact holds
          rw [filed]
          cases saved' with
          | unsaved nowhere _ =>
              rw [wake_stateFile, registry, there] at nowhere
              cases nowhere
          | saved other here holds =>
              rw [wake_stateFile, registry] at here
              obtain rfl := Option.some.inj (here.symm.trans there)
              rw [holds, current, wake_saved]

end

def applyK8s : Call where
  request := .apply "k8s" apiservers
  env := freeNode
  createParent := .ok ()
  write := .written
  rename := .ok ()

/-- The same, when no address could be bound. -/
def applyAgain : Call :=
  { applyK8s with env := { freeNode with bind := fun _ => .error "Address already in use" } }

theorem apply_again_k8s :
    ((emptySite.call pretty applyK8s).2.call pretty applyAgain).1 = .ok (some false) ∧
      ((emptySite.call pretty applyK8s).2.call pretty applyAgain).2.registry =
        (emptySite.call pretty applyK8s).2.registry.wake "k8s" ∧
      ∀ path, (emptySite.call pretty applyK8s).2.registry.stateFile = some path →
        ((emptySite.call pretty applyK8s).2.call pretty applyAgain).2.disk path =
          (emptySite.call pretty applyK8s).2.disk path := by
  have ok : (emptySite.call pretty applyK8s).1 = .ok (some true) := by decide +kernel
  exact apply_again pretty emptySite rfl rfl (fun _ => rfl) (fun _ => ⟨rfl, rfl⟩) ⟨rfl, rfl, rfl⟩ ok

end StormLb.Vips
