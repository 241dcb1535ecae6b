import StormLb.Vips.Registry

/-!
# What `put` can do

A `put` is refused before it touches anything, or it ends half-way when the
second read of the CA file fails, or it changes an entry, or it makes one.
Whatever is proved of the registry's operations is read off these four outcomes.
-/

namespace StormLb.Vips

open StormLb.Net StormLb.Health

namespace Entry

/-- The entry serving on a listener, a new one when it differs. -/
def moved (e : Entry) (id : Nat) (listen : SocketAddr) : Entry :=
  if listen ≠ e.listen then { e with serve := ⟨id, listen⟩, listen } else e

@[simp] theorem moved_spec (e : Entry) (id : Nat) (listen : SocketAddr) :
    (e.moved id listen).spec = e.spec := by
  unfold moved
  split <;> rfl

@[simp] theorem moved_fromConfig (e : Entry) (id : Nat) (listen : SocketAddr) :
    (e.moved id listen).fromConfig = e.fromConfig := by
  unfold moved
  split <;> rfl

@[simp] theorem moved_listen (e : Entry) (id : Nat) (listen : SocketAddr) :
    (e.moved id listen).listen = listen := by
  unfold moved
  split
  · rfl
  · rename_i same
    exact (Decidable.not_not.mp same).symm

@[simp] theorem moved_pool (e : Entry) (id : Nat) (listen : SocketAddr) :
    (e.moved id listen).pool = e.pool := by
  unfold moved
  split <;> rfl

@[simp] theorem moved_vrrp (e : Entry) (id : Nat) (listen : SocketAddr) :
    (e.moved id listen).vrrp = e.vrrp := by
  unfold moved
  split <;> rfl

/-- The entry after `put` moved its listener and set its members. -/
def halfway (e : Entry) (id : Nat) (c : Checked) : Entry :=
  let e := e.moved id c.listen
  { e with pool := e.pool.setAddrs c.backends }

/-- What `put` makes of an entry. -/
structure ReplacedBy (e : Entry) (spec : VipSpec) (c : Checked) (after : Entry) : Prop where
  setsSpec : after.spec = spec
  keepsSource : after.fromConfig = e.fromConfig
  setsListen : after.listen = c.listen
  setsMembers : after.pool = e.pool.setAddrs c.backends
  setsChecker : after.checker.spec = spec.health
  setsVrrp :
    if spec.vrrp ≠ e.spec.vrrp ∨ spec.address ≠ e.spec.address then
      ∃ id, after.vrrp = startVrrp id spec c.vrrpVip
    else after.vrrp = e.vrrp

/-- What `put` makes of a spec. -/
structure MadeFrom (spec : VipSpec) (fromConfig : Bool) (c : Checked) (e : Entry) : Prop where
  setsSpec : e.spec = spec
  setsSource : e.fromConfig = fromConfig
  setsListen : e.listen = c.listen
  setsMembers : e.pool = Pool.new c.backends
  setsChecker : e.checker.spec = spec.health
  setsVrrp : ∃ id, e.vrrp = startVrrp id spec c.vrrpVip

end Entry

namespace Registry

/-- Nothing is served differently, and nothing else is pending. -/
structure SameBesides (r : Registry) (name : String) (e : Entry) (after : Registry) : Prop where
  vips : after.vips = r.vips.insert name e
  pending : after.pending = r.pending
  stateFile : after.stateFile = r.stateFile

/-- The checks that a `put` on a served name passes before it touches the entry. -/
structure Admits (r : Registry) (env : Environment) (name : String) (spec : VipSpec) (c : Checked)
    (e : Entry) : Prop where
  checked : check spec = .ok c
  free : r.conflict name c.listen = none
  present : r.vips[name]? = some e
  loads : ∃ client, Health.client env.first spec.health = .ok client
  binds : c.listen ≠ e.listen → env.bind c.listen = .ok ()

/-- The four outcomes of `put`. -/
inductive PutOutcome (r : Registry) (env : Environment) (name : String) (spec : VipSpec)
    (fromConfig : Bool) : Except ApplyError Bool × Registry → Prop where
  | refused (error : ApplyError) (refuses : ∀ c e, ¬ r.Admits env name spec c e) :
      PutOutcome r env name spec fromConfig (.error error, r)
  | halfway {c : Checked} {e : Entry} {message : String} {after : Registry}
      (admits : r.Admits env name spec c e)
      (fails : client env.second spec.health = .error message)
      (same : r.SameBesides name (e.halfway r.started c) after) :
      PutOutcome r env name spec fromConfig (.error (.invalid (.health message)), after)
  | updated {c : Checked} {e replaced : Entry} {after : Registry}
      (admits : r.Admits env name spec c e)
      (reloads : ∃ client, Health.client env.second spec.health = .ok client)
      (replaces : e.ReplacedBy spec c replaced) (same : r.SameBesides name replaced after) :
      PutOutcome r env name spec fromConfig (.ok false, after)
  | created {c : Checked} {e : Entry} {after : Registry} (checked : check spec = .ok c)
      (free : r.conflict name c.listen = none) (absent : r.vips[name]? = none)
      (made : Entry.MadeFrom spec fromConfig c e) (same : r.SameBesides name e after) :
      PutOutcome r env name spec fromConfig (.ok true, after)

/-- Moving the listener fails only when a new one cannot be bound. -/
theorem moveListener_cases (r : Registry) (env : Environment) (listen : SocketAddr) (e : Entry) :
    (listen ≠ e.listen ∧ ∃ message, env.bind listen = .error message ∧
      r.moveListener env listen e = .error (.conflict (.bind message))) ∨
    ((listen ≠ e.listen → env.bind listen = .ok ()) ∧ ∃ after,
      r.moveListener env listen e = .ok (e.moved r.started listen, after) ∧
      after.vips = r.vips ∧ after.pending = r.pending ∧ after.stateFile = r.stateFile) := by
  unfold moveListener Entry.moved Vips.bind
  by_cases moves : listen ≠ e.listen
  · cases bound : env.bind listen with
    | error message => exact .inl ⟨moves, message, rfl, by simp [moves]⟩
    | ok _ =>
        refine .inr ⟨fun _ => rfl, ?_⟩
        simp only [if_pos moves]
        exact ⟨_, rfl, rfl, rfl, rfl⟩
  · refine .inr ⟨fun differs => absurd differs moves, ?_⟩
    simp only [if_neg moves]
    exact ⟨_, rfl, rfl, rfl, rfl⟩

/-- Two entries that pass the checks of one `put` are one. -/
theorem Admits.unique {r : Registry} {env : Environment} {name : String} {spec : VipSpec}
    {c c' : Checked} {e e' : Entry} (first : r.Admits env name spec c e)
    (second : r.Admits env name spec c' e') : c = c' ∧ e = e' :=
  ⟨Except.ok.inj (first.checked.symm.trans second.checked),
    Option.some.inj (first.present.symm.trans second.present)⟩

theorem setEntry_sameBesides {r after : Registry} (name : String) (e : Entry)
    (vips : after.vips = r.vips) (pending : after.pending = r.pending)
    (stateFile : after.stateFile = r.stateFile) : r.SameBesides name e (after.setEntry name e) where
  vips := by rw [← vips]; rfl
  pending := pending
  stateFile := stateFile

/-- The VRRP instance is another one exactly when the spec changes it. -/
theorem changeVrrp_cases (r : Registry) (spec : VipSpec) (vip : Option Ipv4Addr) (e : Entry) :
    ∃ vrrp, (if spec.vrrp ≠ e.spec.vrrp ∨ spec.address ≠ e.spec.address then
        ∃ id, vrrp = startVrrp id spec vip
      else vrrp = e.vrrp) ∧
      (r.changeVrrp spec vip e).1 = { e with vrrp } ∧
      (r.changeVrrp spec vip e).2.vips = r.vips ∧
      (r.changeVrrp spec vip e).2.pending = r.pending ∧
      (r.changeVrrp spec vip e).2.stateFile = r.stateFile := by
  unfold changeVrrp
  by_cases changes : spec.vrrp ≠ e.spec.vrrp ∨ spec.address ≠ e.spec.address
  · refine ⟨startVrrp r.started spec vip, ?_, ?_⟩
    · rw [if_pos changes]
      exact ⟨_, rfl⟩
    · rw [if_pos changes]
      exact ⟨rfl, rfl, rfl, rfl⟩
  · refine ⟨e.vrrp, ?_, ?_⟩
    · rw [if_neg changes]
    · rw [if_neg changes]
      exact ⟨rfl, rfl, rfl, rfl⟩

/-- A new VIP is refused, or made. -/
theorem create_outcome {r : Registry} {env : Environment} {name : String} {spec : VipSpec}
    {fromConfig : Bool} {c : Checked} (checked : check spec = .ok c)
    (free : r.conflict name c.listen = none) (absent : r.vips[name]? = none) :
    PutOutcome r env name spec fromConfig (r.create env name spec fromConfig c) := by
  unfold create
  have refuses : ∀ c e, ¬ r.Admits env name spec c e := by
    intro c e admits
    have present := admits.present
    rw [absent] at present
    cases present
  cases built : Checker.new env.first spec.health with
  | error message => exact .refused _ refuses
  | ok checker =>
      dsimp only [health]
      cases bound : bind env c.listen with
      | error error => exact .refused _ refuses
      | ok _ =>
          refine .created checked free absent ?_ (setEntry_sameBesides name _ rfl rfl rfl)
          exact
            { setsSpec := rfl
              setsSource := rfl
              setsListen := rfl
              setsMembers := rfl
              setsChecker := Checker.new_eq_ok built
              setsVrrp := ⟨_, rfl⟩ }

/-- An update is refused, ends half-way, or replaces the entry. -/
theorem update_outcome {r : Registry} {env : Environment} {name : String} {spec : VipSpec}
    {fromConfig : Bool} {c : Checked} {e : Entry} (checked : check spec = .ok c)
    (free : r.conflict name c.listen = none) (present : r.vips[name]? = some e) :
    PutOutcome r env name spec fromConfig (r.update env name spec c e) := by
  unfold update healthOk
  have known : ∀ c' e', r.Admits env name spec c' e' → c' = c ∧ e' = e := fun c' e' admits =>
    ⟨Except.ok.inj (admits.checked.symm.trans checked),
      Option.some.inj (admits.present.symm.trans present)⟩
  cases loads : client env.first spec.health with
  | error message =>
      refine .refused _ fun c' e' admits => ?_
      obtain ⟨built, loads'⟩ := admits.loads
      rw [loads] at loads'
      cases loads'
  | ok built =>
      dsimp only
      rcases r.moveListener_cases env c.listen e with ⟨moves, message, taken, refuses⟩ |
          ⟨binds, after, moves, vips, pending, stateFile⟩
      · rw [refuses]
        refine .refused _ fun c' e' admits => ?_
        obtain ⟨rfl, rfl⟩ := known c' e' admits
        have binds := admits.binds moves
        rw [taken] at binds
        cases binds
      · rw [moves]
        dsimp only
        have admits : r.Admits env name spec c e := ⟨checked, free, present, ⟨built, loads⟩, binds⟩
        cases set : (e.moved r.started c.listen).checker.setSpec env.second spec.health with
        | error message =>
            have fails := Checker.setSpec_eq_error_iff.mp set
            exact .halfway admits fails (setEntry_sameBesides name _ vips pending stateFile)
        | ok checker =>
            dsimp only [health]
            obtain ⟨vrrp, starts, entry, vips', pending', stateFile'⟩ := after.changeVrrp_cases spec
              c.vrrpVip { e.moved r.started c.listen with
                pool := (e.moved r.started c.listen).pool.setAddrs c.backends, checker }
            rw [entry]
            refine .updated admits (Checker.setSpec_loads set) ?_ (setEntry_sameBesides name _ (vips'.trans vips)
              (pending'.trans pending) (stateFile'.trans stateFile))
            exact
              { setsSpec := rfl
                keepsSource := by simp
                setsListen := by simp
                setsMembers := by simp
                setsChecker := Checker.setSpec_eq_ok set
                setsVrrp := by simpa using starts }

theorem put_outcome (r : Registry) (env : Environment) (name : String) (spec : VipSpec)
    (fromConfig : Bool) : PutOutcome r env name spec fromConfig (r.put env name spec fromConfig) := by
  unfold put
  cases checked : check spec with
  | error error =>
      refine .refused error fun c e admits => ?_
      rw [admits.checked] at checked
      cases checked
  | ok c =>
      dsimp only
      cases free : r.conflict name c.listen with
      | some other =>
          refine .refused _ fun c' e admits => ?_
          obtain rfl := Except.ok.inj (checked.symm.trans admits.checked)
          rw [admits.free] at free
          cases free
      | none =>
          dsimp only
          cases present : r.vips[name]? with
          | some e => exact update_outcome checked free present
          | none => exact create_outcome checked free present

end Registry

end StormLb.Vips
