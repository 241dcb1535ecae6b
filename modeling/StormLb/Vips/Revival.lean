import StormLb.Vips.Host

/-!
# Loops that have ended

A VRRP loop may end by an error at any time, and its entry keeps the handle.
`put` starts another loop when the spec changes the VRRP settings or the
address, and otherwise leaves the handle, whether its loop still runs or not.
-/

namespace StormLb.Vips

open StormLb.Net StormLb.Effects StormLb.Vrrp

/-! ## Handles are numbered -/

namespace Registry

/-- The entry of a name has the handle. -/
def Handles (r : Registry) (name : String) (handle : Handle) : Prop :=
  ∃ e, r.vips[name]? = some e ∧ e.vrrp = some handle

/-- Every handle is the name's of before, or one of a number not given out before. -/
structure Numbers (r after : Registry) : Prop where
  grows : r.started ≤ after.started
  handles : ∀ name handle, after.Handles name handle →
    r.Handles name handle ∨ r.started ≤ handle.id ∧ handle.id < after.started

variable {r mid after : Registry} {name : String} {e : Entry}

theorem Numbers.of_vips (vips : after.vips = r.vips) (grows : r.started ≤ after.started) :
    Numbers r after where
  grows := grows
  handles name handle handles := .inl (by rwa [Handles, vips] at handles)

theorem Numbers.refl (r : Registry) : Numbers r r :=
  .of_vips rfl (Nat.le_refl _)

theorem Numbers.trans (first : Numbers r mid) (second : Numbers mid after) : Numbers r after where
  grows := Nat.le_trans first.grows second.grows
  handles name handle handles := by
    rcases second.handles name handle handles with before | ⟨least, most⟩
    · rcases first.handles name handle before with earlier | ⟨least, most⟩
      · exact .inl earlier
      · exact .inr ⟨least, Nat.lt_of_lt_of_le most second.grows⟩
    · exact .inr ⟨Nat.le_trans first.grows least, most⟩

/-- One entry is set, with the handle it had or a new one. -/
theorem Numbers.setEntry (vips : mid.vips = r.vips) (grows : r.started ≤ mid.started)
    (handle : ∀ handle, e.vrrp = some handle →
      r.Handles name handle ∨ r.started ≤ handle.id ∧ handle.id < mid.started) :
    Numbers r (mid.setEntry name e) where
  grows := grows
  handles other h := by
    rintro ⟨e', present, running⟩
    rw [(setEntry_sameBesides name e rfl rfl rfl).getElem?] at present
    split at present
    · rename_i same
      cases present
      rw [same]
      exact handle h running
    · exact .inl ⟨e', by rwa [vips] at present, running⟩

/-- Moving the listener gives out at most one number, and leaves the handle. -/
theorem moveListener_started {env : Environment} {listen : SocketAddr} {moved : Entry}
    (ok : r.moveListener env listen e = .ok (moved, after)) :
    after.vips = r.vips ∧ r.started ≤ after.started ∧ moved.vrrp = e.vrrp ∧ moved.spec = e.spec := by
  unfold moveListener at ok
  split at ok
  · cases bound : bind env listen with
    | error error =>
        rw [bound] at ok
        cases ok
    | ok _ =>
        rw [bound] at ok
        cases ok
        exact ⟨rfl, Nat.le_succ _, rfl, rfl⟩
  · cases ok
    exact ⟨rfl, Nat.le_refl _, rfl, rfl⟩

theorem startVrrp_id {id : Nat} {spec : VipSpec} {vip : Option Ipv4Addr} {handle : Handle}
    (started : startVrrp id spec vip = some handle) : handle.id = id := by
  unfold startVrrp at started
  cases owned : spec.vrrp with
  | none =>
      rw [owned] at started
      cases started
  | some v =>
      cases vip with
      | none =>
          rw [owned] at started
          cases started
      | some vip =>
          rw [owned] at started
          cases started
          rfl

theorem update_numbers {env : Environment} {spec : VipSpec} {c : Checked}
    (present : r.vips[name]? = some e) : Numbers r (r.update env name spec c e).2 := by
  have kept {e' : Entry} (same : e'.vrrp = e.vrrp) (handle : Handle)
      (running : e'.vrrp = some handle) : r.Handles name handle :=
    ⟨e, present, same.symm.trans running⟩
  unfold update
  cases healthOk env.first spec.health with
  | error error => exact .refl r
  | ok _ =>
      dsimp only
      cases moves : r.moveListener env c.listen e with
      | error error => exact .refl r
      | ok result =>
          obtain ⟨moved, mid⟩ := result
          obtain ⟨vips, grows, handle, spec⟩ := moveListener_started moves
          dsimp only
          split
          · exact .setEntry vips grows fun h running => .inl (kept handle h running)
          · unfold changeVrrp
            split
            · refine .setEntry vips (Nat.le_succ_of_le grows) fun h running => .inr ?_
              rw [startVrrp_id running]
              exact ⟨grows, Nat.lt_succ_self _⟩
            · exact .setEntry vips grows fun h running => .inl (kept handle h running)

theorem create_numbers {env : Environment} {spec : VipSpec} {fromConfig : Bool} {c : Checked} :
    Numbers r (r.create env name spec fromConfig c).2 := by
  unfold create
  split
  · exact .refl r
  · split
    · exact .refl r
    · refine .setEntry rfl (Nat.le_add_right _ _) fun h running => .inr ?_
      rw [startVrrp_id running]
      exact ⟨Nat.le_add_right _ _, Nat.add_lt_add_left (by decide) _⟩

theorem put_numbers (r : Registry) (env : Environment) (name : String) (spec : VipSpec)
    (fromConfig : Bool) : Numbers r (r.put env name spec fromConfig).2 := by
  unfold put
  split
  · exact .refl r
  · split
    · exact .refl r
    · split
      · rename_i present
        exact update_numbers present
      · exact create_numbers

theorem background_numbers {change : Entry → Entry} (same : ∀ e, (change e).vrrp = e.vrrp) :
    Numbers r (r.background name change) := by
  unfold background
  split
  · rename_i e present
    exact .setEntry rfl (Nat.le_refl _) fun h running =>
      .inl ⟨e, present, (same e).symm.trans running⟩
  · exact .refl r

theorem loadState_numbers (serde : Serde) (file : FileRead) (env : String → Environment) :
    Numbers r (r.loadState serde file env).2 := by
  have loadOne (state : Nat × Registry) (vip : String × VipSpec) :
      Numbers state.2 (loadOne env state vip).2 := by
    have numbers := state.2.put_numbers (env vip.1) vip.1 vip.2 false
    unfold Registry.loadOne
    split
    · rename_i put
      rwa [put] at numbers
    · rename_i put
      rw [put] at numbers
      exact numbers.trans (.of_vips rfl (Nat.le_refl _))
  have loaded (vips : List (String × VipSpec)) (state : Nat × Registry) :
      Numbers state.2 (vips.foldl (Registry.loadOne env) state).2 := by
    induction vips generalizing state with
    | nil => exact .refl _
    | cons vip rest ih => exact (loadOne state vip).trans (ih _)
  unfold loadState
  split
  · exact .refl r
  · exact .refl r
  · exact .refl r
  · split
    · exact .refl r
    · exact loaded _ (0, r)

theorem apply_numbers (serde : Serde) (env : Environment)
    (writeAtomic : String → String → Except String Unit) (name : String) (spec : VipSpec) :
    Numbers r (r.apply serde env writeAtomic name spec).2 := by
  have numbers := r.put_numbers env name spec false
  unfold apply
  split
  · exact .refl r
  · split
    · exact .refl r
    · split
      · rename_i put
        rwa [put] at numbers
      · rename_i put
        rw [put] at numbers
        exact numbers.trans (.of_vips rfl (Nat.le_refl _))

theorem remove_numbers (serde : Serde) (writeAtomic : String → String → Except String Unit)
    (name : String) : Numbers r (r.remove serde writeAtomic name).2 := by
  have removed : Numbers r (r.removeEntry name).2 := by
    unfold removeEntry
    split
    · split
      · exact .of_vips rfl (Nat.le_refl _)
      · exact .refl r
    · split
      · exact .refl r
      · refine ⟨Nat.le_refl _, fun other handle => ?_⟩
        rintro ⟨e, present, running⟩
        change (r.vips.erase name)[other]? = some e at present
        rw [Std.ExtTreeMap.getElem?_erase] at present
        split at present
        · cases present
        · exact .inl ⟨e, present, running⟩
  unfold remove
  split
  · rename_i error
    rwa [error] at removed
  · rename_i ok
    rwa [ok] at removed

/-- No operation gives out a number twice. -/
theorem run_numbers (r : Registry) (operation : Operation) : Numbers r (r.run operation) := by
  cases operation with
  | startConfig env spec => exact r.put_numbers env configVip spec true
  | loadState serde file env => exact loadState_numbers serde file env
  | apply serde env writeAtomic name spec => exact apply_numbers serde env writeAtomic name spec
  | remove serde writeAtomic name => exact remove_numbers serde writeAtomic name
  | probed name id healthy => exact background_numbers fun _ => rfl
  | connected name => exact background_numbers fun _ => rfl
  | woken name => exact background_numbers fun _ => rfl

end Registry

/-! ## The handle that an `apply` leaves -/

/-- The spec asks for the VRRP instance that the entry was made for. -/
def Entry.SameVrrp (e : Entry) (spec : VipSpec) : Prop :=
  spec.vrrp = e.spec.vrrp ∧ spec.address = e.spec.address

instance (e : Entry) (spec : VipSpec) : Decidable (e.SameVrrp spec) :=
  inferInstanceAs (Decidable (_ ∧ _))

namespace Registry

variable {r after : Registry} {name : String} {env : Environment} {spec : VipSpec}

/-- An accepted `put` leaves the handle of an entry for the same instance, and starts a loop else. -/
theorem put_handle {fromConfig created : Bool}
    (ok : r.put env name spec fromConfig = (.ok created, after)) :
    ∃ e c, after.vips[name]? = some e ∧ check spec = .ok c ∧
      ((∃ e₀, r.vips[name]? = some e₀ ∧ e₀.SameVrrp spec ∧ e.vrrp = e₀.vrrp) ∨
        (∀ e₀, r.vips[name]? = some e₀ → ¬ e₀.SameVrrp spec) ∧
          ∃ id, r.started ≤ id ∧ e.vrrp = startVrrp id spec c.vrrpVip) := by
  have set (mid : Registry) (e : Entry) : (mid.setEntry name e).vips[name]? = some e := by
    rw [(setEntry_sameBesides name e rfl rfl rfl).getElem?, if_pos rfl]
  unfold put at ok
  split at ok
  · cases ok
  · rename_i c checked
    split at ok
    · cases ok
    · split at ok
      · rename_i e₀ present
        unfold update at ok
        split at ok
        · cases ok
        · split at ok
          · cases ok
          · rename_i moved mid moves
            obtain ⟨_, grows, handle, sameSpec⟩ := moveListener_started moves
            dsimp only at ok
            split at ok
            · cases ok
            · rename_i checker _
              cases ok
              refine ⟨_, c, set _ _, checked, ?_⟩
              unfold changeVrrp
              dsimp only
              rw [sameSpec]
              split
              · rename_i changed
                refine .inr ⟨fun e₁ present' same => ?_, mid.started, grows, rfl⟩
                obtain rfl := Option.some.inj (present.symm.trans present')
                rcases changed with vrrp | address
                · exact vrrp same.1
                · exact address same.2
              · rename_i unchanged
                obtain ⟨vrrp, address⟩ := not_or.mp unchanged
                exact .inl ⟨e₀, present, ⟨not_not.mp vrrp, not_not.mp address⟩, handle⟩
      · rename_i absent
        unfold create at ok
        split at ok
        · cases ok
        · split at ok
          · cases ok
          · cases ok
            refine ⟨_, c, set _ _, checked, .inr ⟨fun e₀ present => ?_, _, Nat.le_add_right _ 2, rfl⟩⟩
            cases absent.symm.trans present

/-- An accepted `apply` is an accepted `put`. -/
theorem exists_put_of_apply_ok {serde : Serde} {writeAtomic : String → String → Except String Unit}
    {created : Bool} (ok : r.apply serde env writeAtomic name spec = (.ok created, after)) :
    ∃ mid made, r.put env name spec false = (.ok made, mid) ∧ after.vips = mid.vips := by
  unfold apply at ok
  split at ok
  · cases ok
  · split at ok
    · cases ok
    · split at ok
      · cases ok
      · rename_i made mid put
        cases (Prod.mk.inj ok).2
        exact ⟨mid, made, put, rfl⟩

end Registry

/-! ## Entries with VRRP have a handle -/

namespace Registry

def HasHandles (r : Registry) : Prop :=
  ∀ (name : String) (e : Entry), r.vips[name]? = some e → e.vrrp.isSome = e.spec.vrrp.isSome

theorem SameBesides.hasHandles {r after : Registry} {name : String} {e : Entry}
    (same : r.SameBesides name e after) (has : r.HasHandles)
    (entry : e.vrrp.isSome = e.spec.vrrp.isSome) : after.HasHandles := by
  intro other e' present
  rw [same.getElem?] at present
  split at present
  · cases present
    exact entry
  · exact has other e' present

theorem put_hasHandles {r : Registry} (env : Environment) (name : String) (spec : VipSpec)
    (fromConfig : Bool) (has : r.HasHandles) : (r.put env name spec fromConfig).2.HasHandles := by
  have outcome := r.put_outcome env name spec fromConfig
  generalize r.put env name spec fromConfig = result at outcome ⊢
  have starts {c : Checked} {id : Nat} (checked : check spec = .ok c) :
      (startVrrp id spec c.vrrpVip).isSome = spec.vrrp.isSome :=
    startVrrp_isSome id (checks_of_check checked).vrrpVip
  cases outcome with
  | refused error refuses => exact has
  | @halfway c e message after admits fails same =>
      refine same.hasHandles has ?_
      simpa [Entry.halfway] using has name e admits.present
  | @updated c e replaced after admits reloads replaces same =>
      refine same.hasHandles has ?_
      have sets := replaces.setsVrrp
      rw [replaces.setsSpec]
      split at sets
      · obtain ⟨id, started⟩ := sets
        rw [started, starts admits.checked]
      · rename_i unchanged
        rw [sets, has name e admits.present, not_not.mp (not_or.mp unchanged).1]
  | created checked free absent made same =>
      refine same.hasHandles has ?_
      obtain ⟨id, started⟩ := made.setsVrrp
      rw [made.setsSpec, started, starts checked]

theorem kept_hasHandles : Kept (fun _ => True) HasHandles where
  congr same has name e present := has name e (by rwa [same] at present)
  put name spec fromConfig _ has := put_hasHandles _ name spec fromConfig has
  erase erased has other e present := by
    rw [erased, Std.ExtTreeMap.getElem?_erase] at present
    split at present
    · cases present
    · exact has other e present
  idle present idles has := by
    refine (setEntry_sameBesides _ _ rfl rfl rfl).hasHandles has ?_
    rw [idles.vrrp, idles.spec]
    exact has _ _ present

/-- The instances of a registry are the handles of its entries. -/
theorem mem_instances {r : Registry} {name : String} {handle : Handle} :
    (name, handle) ∈ r.instances ↔ r.Handles name handle := by
  rw [instances, List.mem_filterMap]
  constructor
  · rintro ⟨⟨other, e⟩, mem, running⟩
    obtain ⟨handle', has, same⟩ := Option.map_eq_some_iff.mp running
    cases same
    exact ⟨e, Std.ExtTreeMap.mem_toList_iff_getElem?_eq_some.mp mem, has⟩
  · rintro ⟨e, present, has⟩
    refine ⟨(name, e), Std.ExtTreeMap.mem_toList_iff_getElem?_eq_some.mpr present, ?_⟩
    simp [has]

end Registry

/-! ## The loops beside the registry -/

/-- The registry, and the handle of every loop started so far. -/
structure Fleet where
  registry : Registry
  started : List Handle

namespace Fleet

def new (stateFile : Option String) : Fleet where
  registry := Registry.new stateFile
  started := []

/-- A started loop reads its own stop flag; whatever else it asks may be answered in any way. -/
def serve (handle : Handle) (fleet : Fleet) (call : Vrrp.Call) (answer : call.Ans) : Option Fleet :=
  if handle ∈ fleet.started then
    match call, answer with
    | ⟨_, .stopLoad⟩, stop =>
        if stop = decide (handle.id ∈ fleet.registry.stopped) then some fleet else none
    | _, _ => some fleet
  else none

/-- The operation is done, and the loops it made are started. -/
def after (fleet : Fleet) (operation : Operation) : Fleet :=
  let registry := fleet.registry.run operation
  { registry
    started := fleet.started ++
      (registry.instances.map Prod.snd).filter fun handle => handle ∉ fleet.started }

/-- The loops of all handles there may be, over the registry that any operation may change. -/
def loops : Threads Handle Vrrp.Call Vrrp.Call.Ans Locals Exit Fleet where
  first handle := handle.params.startRun
  body handle := handle.params.turnRun
  serves := serve
  drifts fleet changed := ∃ operation, changed = fleet.after operation

end Fleet

/-- Where the loops stand, what they did, and the registry. -/
abbrev FleetMoment := Config Handle Vrrp.Call Vrrp.Call.Ans Locals Exit Fleet

namespace Fleet

/-- Nothing is served yet. -/
def start (stateFile : Option String) : FleetMoment :=
  loops.initial (new stateFile)

/-- The handle's loop has returned. -/
def Exited (config : FleetMoment) (handle : Handle) : Prop :=
  ∃ exit, config.threads handle = .done (.inr exit)

/-- Only a started loop is served, and it leaves the registry. -/
theorem serve_cases {handle : Handle} {fleet served : Fleet} {call : Vrrp.Call}
    {answer : call.Ans} (serves : fleet.serve handle call answer = some served) :
    handle ∈ fleet.started ∧ served = fleet := by
  obtain ⟨l, op⟩ := call
  unfold serve at serves
  split at serves
  · rename_i running
    refine ⟨running, ?_⟩
    cases op with
    | stopLoad =>
        dsimp only at serves
        split at serves
        · exact (Option.some.inj serves).symm
        · cases serves
    | _ => exact (Option.some.inj serves).symm
  · cases serves

/-- Every handle of an entry has been started, and every started one is numbered. -/
structure Tracks (fleet : Fleet) : Prop where
  numbered : ∀ handle ∈ fleet.started, handle.id < fleet.registry.started
  tracked : ∀ name handle, fleet.registry.Handles name handle → handle ∈ fleet.started
  handles : fleet.registry.HasHandles

theorem Tracks.after {fleet : Fleet} (tracks : fleet.Tracks) (operation : Operation) :
    (fleet.after operation).Tracks := by
  have numbers := fleet.registry.run_numbers operation
  have tracked (name : String) (handle : Handle)
      (handles : (fleet.registry.run operation).Handles name handle) :
      handle ∈ (fleet.after operation).started := by
    by_cases before : handle ∈ fleet.started
    · exact List.mem_append_left _ before
    · refine List.mem_append_right _ (List.mem_filter.mpr ⟨?_, by simpa using before⟩)
      exact List.mem_map_of_mem (Registry.mem_instances.mpr handles)
  refine ⟨fun handle started => ?_, tracked, ?_⟩
  · rcases List.mem_append.mp started with before | made
    · exact Nat.lt_of_lt_of_le (tracks.numbered handle before) numbers.grows
    · obtain ⟨⟨name, _⟩, mem, rfl⟩ := List.mem_map.mp (List.mem_filter.mp made).1
      rcases numbers.handles _ _ (Registry.mem_instances.mp mem) with earlier | ⟨_, below⟩
      · exact Nat.lt_of_lt_of_le (tracks.numbered _ (tracks.tracked _ _ earlier)) numbers.grows
      · exact below
  · exact Registry.kept_hasHandles.run (operation.puts_of_forall fun _ => trivial) tracks.handles

variable {stateFile : Option String} {config : FleetMoment}
  {allowed : Option Handle → FleetMoment → Prop}

theorem tracks_of_reaches (reached : Threads.Reaches loops allowed (start stateFile) config) :
    config.world.Tracks := by
  have initially : (new stateFile).Tracks := by
    refine ⟨?_, ?_, ?_⟩
    · rintro handle ⟨⟩
    · rintro name handle ⟨e, present, _⟩
      simp [new, Registry.new] at present
    · intro name e present
      simp [new, Registry.new] at present
  induction reached with
  | start => exact initially
  | step before admitted stepped tracks =>
      cases stepped with
      | turn looped => exact tracks
      | call answer waiting served =>
          obtain ⟨_, rfl⟩ := serve_cases served
          exact tracks
      | drift moved =>
          obtain ⟨operation, rfl⟩ := moved
          exact tracks.after operation

/-- A loop that is not started has not moved. -/
theorem threads_of_not_started (reached : Threads.Reaches loops allowed (start stateFile) config)
    (handle : Handle) (idle : handle ∉ config.world.started) :
    config.threads handle = handle.params.startRun := by
  induction reached with
  | start => rfl
  | @step config after who before admitted stepped ih =>
      cases stepped with
      | @turn _ other state looped =>
          have still := ih idle
          by_cases same : handle = other
          · subst same
            cases looped.symm.trans still
          · exact (Function.update_of_ne same ..).trans still
      | drift moved =>
          obtain ⟨operation, rfl⟩ := moved
          exact ih fun started => idle (List.mem_append_left _ started)
      | @call _ other call next world answer waiting served =>
          obtain ⟨running, rfl⟩ := serve_cases served
          have apart : handle ≠ other := by
            rintro rfl
            exact idle running
          exact (Function.update_of_ne apart ..).trans (ih idle)

theorem not_exited_of_not_started
    (reached : Threads.Reaches loops allowed (start stateFile) config) {handle : Handle}
    (idle : handle ∉ config.world.started) : ¬ Exited config handle := by
  rintro ⟨exit, exited⟩
  cases (threads_of_not_started reached handle idle).symm.trans exited

/--
An accepted `apply` with VRRP leaves the handle of a loop that has not exited,
unless the name was served with the same VRRP settings and address by a loop
that had.
-/
theorem apply_exited_iff {serde : Serde} {env : Environment}
    {writeAtomic : String → String → Except String Unit} {name : String} {spec : VipSpec}
    {created : Bool} {after : Registry}
    (reached : Threads.Reaches loops allowed (start stateFile) config)
    (ok : config.world.registry.apply serde env writeAtomic name spec = (.ok created, after))
    (asks : spec.vrrp.isSome) :
    ∃ e handle, after.vips[name]? = some e ∧ e.vrrp = some handle ∧
      (Exited config handle ↔ ∃ e₀ handle₀, config.world.registry.vips[name]? = some e₀ ∧
        e₀.SameVrrp spec ∧ e₀.vrrp = some handle₀ ∧ Exited config handle₀) := by
  have tracks := tracks_of_reaches reached
  obtain ⟨mid, made, put, vips⟩ := Registry.exists_put_of_apply_ok ok
  obtain ⟨e, c, present, checked, ⟨e₀, before, same, kept⟩ | ⟨changed, id, fresh, started⟩⟩ :=
    Registry.put_handle put
  · obtain ⟨handle, has⟩ : ∃ handle, e₀.vrrp = some handle := by
      rw [← Option.isSome_iff_exists, tracks.handles name e₀ before, ← same.1]
      exact asks
    refine ⟨e, handle, by rw [vips, present], kept.trans has, fun exited => ?_, ?_⟩
    · exact ⟨e₀, handle, before, same, has, exited⟩
    · rintro ⟨e₁, handle₁, before', _, has', exited⟩
      cases before.symm.trans before'
      cases has.symm.trans has'
      exact exited
  · obtain ⟨handle, starts⟩ : ∃ handle, e.vrrp = some handle := by
      rw [← Option.isSome_iff_exists, started,
        startVrrp_isSome id (checks_of_check checked).vrrpVip]
      exact asks
    have idle : handle ∉ config.world.started := fun running =>
      absurd (tracks.numbered handle running)
        (Nat.not_lt.mpr (Registry.startVrrp_id (started.symm.trans starts) ▸ fresh))
    refine ⟨e, handle, by rw [vips, present], starts, fun exited => ?_, ?_⟩
    · exact absurd exited (not_exited_of_not_started reached idle)
    · rintro ⟨e₀, _, before, same, _⟩
      exact absurd same (changed e₀ before)

/-! ## A loop that ends at once -/

def ownedVip : VipSpec :=
  owned "192.168.8.50" eth0

def applyOwned (fleet : Fleet) : Except ApplyError Bool × Registry :=
  fleet.registry.apply unasked freeNode (fun _ _ => .ok ()) "a" ownedVip

/-- There is no interface eth0. -/
def noInterface (_ : Handle) (_ : Fleet) (call : Vrrp.Call) : call.Ans :=
  match call with
  | ⟨_, .interfaceIpv4 _⟩ => none
  | call => answers .timedOut [] call

/-- The VIP is applied, and its loop finds no interface and returns. -/
def noLoop : FleetMoment :=
  loops.playSchedule Threads.anySchedule noInterface
    { start none with
      world := (start none).world.after
        (.apply unasked freeNode (fun _ _ => .ok ()) "a" ownedVip) }
    (List.replicate 2 (only eth0 ⟨192, 168, 8, 50⟩))

theorem reaches_noLoop : Threads.Reaches loops Threads.anySchedule (start none) noLoop :=
  Threads.Reaches.playSchedule _ _ (.step .start trivial (.drift ⟨_, rfl⟩))

theorem exited_noLoop : Exited noLoop (only eth0 ⟨192, 168, 8, 50⟩) :=
  ⟨.error .interfaceIpv4, rfl⟩

theorem applyOwned_ok (fleet : Fleet) (accepted : (applyOwned fleet).1 = .ok false) :
    applyOwned fleet = (.ok false, (applyOwned fleet).2) := by
  rw [← accepted]

/-- The VIP is applied again, and the handle stays that of the loop that returned. -/
theorem apply_leaves_exited :
    ¬ ∀ (stateFile : Option String) (config : FleetMoment),
      Threads.Reaches loops Threads.anySchedule (start stateFile) config →
      ∀ (serde : Serde) (env : Environment) (writeAtomic : String → String → Except String Unit)
        (name : String) (spec : VipSpec) (created : Bool) (after : Registry),
        config.world.registry.apply serde env writeAtomic name spec = (.ok created, after) →
        spec.vrrp.isSome → ∃ e handle, after.vips[name]? = some e ∧ e.vrrp = some handle ∧
          ¬ Exited config handle := by
  intro revives
  obtain ⟨e, handle, present, runs, alive⟩ := revives none noLoop reaches_noLoop _ _ _ _ _ _ _
    (applyOwned_ok noLoop.world (by decide +kernel)) rfl
  have same : (applyOwned noLoop.world).2.vips["a"]?.bind Entry.vrrp =
      some (only eth0 ⟨192, 168, 8, 50⟩) := by decide +kernel
  have stays : (applyOwned noLoop.world).2.vips["a"]?.bind Entry.vrrp = some handle := by
    rw [show (applyOwned noLoop.world).2.vips["a"]? = some e from present]
    exact runs
  cases same.symm.trans stays
  exact alive exited_noLoop

theorem apply_exited_iff_noLoop :
    ∃ e handle, (applyOwned noLoop.world).2.vips["a"]? = some e ∧ e.vrrp = some handle ∧
      (Exited noLoop handle ↔ ∃ e₀ handle₀, noLoop.world.registry.vips["a"]? = some e₀ ∧
        e₀.SameVrrp ownedVip ∧ e₀.vrrp = some handle₀ ∧ Exited noLoop handle₀) :=
  apply_exited_iff reaches_noLoop (applyOwned_ok noLoop.world (by decide +kernel)) rfl

end Fleet

end StormLb.Vips
