import StormLb.Effects.Program
import StormLb.Vips.Invariant

/-!
# The steps of `put` on a VIP that is served

Under the lock on the VIPs, `put` replaces the members, then the checker's spec
and client, then wakes the health loop, which reads members and spec meanwhile.
Run alone, the steps do what `put` does.
-/

namespace StormLb.Vips

open StormLb.Net StormLb.Config StormLb.Health StormLb.Effects

inductive PutOp where
  /-- The next spec that is put on the VIP. -/
  | request
  /-- Take the lock on the VIPs. -/
  | lock
  /-- Another VIP that listens there. -/
  | conflict (listen : SocketAddr)
  /-- Build the client of a health spec. -/
  | client (spec : HealthSpec)
  /-- Serve on this listener; the number of the task when it is a new one. -/
  | moveListener (listen : SocketAddr)
  | setAddrs (addrs : List SocketAddr)
  /-- Write the checker's spec and client. -/
  | setState (spec : HealthSpec) (client : Option Client)
  | notifyOne
  /-- Restart VRRP when the spec changes it; the number of the handle when it does. -/
  | changeVrrp (spec : VipSpec) (vip : Option Ipv4Addr)
  | setSpec (spec : VipSpec)
  | unlock

abbrev PutOp.Ans : PutOp → Type
  | .request => VipSpec
  | .conflict _ => Option String
  | .client _ => Except String (Option Client)
  | .moveListener _ => Except String Nat
  | .changeVrrp .. => Nat
  | .lock | .setAddrs _ | .setState .. | .notifyOne | .setSpec _ | .unlock => Unit

abbrev PutProg := Program PutOp PutOp.Ans

abbrev PutLog := History PutOp PutOp.Ans

/-- Perform one step. -/
def PutOp.perform (op : PutOp) : PutProg op.Ans :=
  .call op .done

@[simp] theorem PutOp.perform_eq (op : PutOp) : op.perform = .call op .done :=
  rfl

/-- What a step makes of the entry. -/
def PutOp.does (e : Entry) (op : PutOp) (answer : op.Ans) : Entry :=
  match op, answer with
  | .moveListener listen, .ok id => e.moved id listen
  | .setAddrs addrs, _ => { e with pool := e.pool.setAddrs addrs }
  | .setState spec made, _ => { e with checker := { e.checker with spec, client := made } }
  | .notifyOne, _ => { e with checker := { e.checker with wake := true } }
  | .changeVrrp spec vip, id =>
      if spec.vrrp ≠ e.spec.vrrp ∨ spec.address ≠ e.spec.address then
        { e with vrrp := startVrrp id spec vip }
      else e
  | .setSpec spec, _ => { e with spec }
  | _, _ => e

/-- `put` on a name that is served, from the lock on. -/
def putLocked (spec : VipSpec) (c : Checked) : PutProg (Except ApplyError Bool) := do
  match ← PutOp.perform (.conflict c.listen) with
  | some other => return .error (.conflict (.listener c.listen other))
  | none =>
      match ← PutOp.perform (.client spec.health) with
      | .error error => return .error (.invalid (.health error))
      | .ok _ =>
          match ← PutOp.perform (.moveListener c.listen) with
          | .error error => return .error (.conflict (.bind error))
          | .ok _ =>
              let _ ← PutOp.perform (.setAddrs c.backends)
              -- `Checker::set_spec` builds the client once more.
              match ← PutOp.perform (.client spec.health) with
              | .error error => return .error (.invalid (.health error))
              | .ok client =>
                  let _ ← PutOp.perform (.setState spec.health client)
                  let _ ← PutOp.perform .notifyOne
                  let _ ← PutOp.perform (.changeVrrp spec c.vrrpVip)
                  let _ ← PutOp.perform (.setSpec spec)
                  return .ok false

/-- `put` on a name that is served. -/
def putSteps (spec : VipSpec) : PutProg (Except ApplyError Bool) :=
  match check spec with
  | .error error => return .error error
  | .ok c => do
      let _ ← PutOp.perform .lock
      let result ← putLocked spec c
      let _ ← PutOp.perform .unlock
      return result

/-- Whoever puts specs on the VIP, one after the other. -/
def putForever : PutProg (Unit ⊕ Empty) := do
  let spec ← PutOp.perform .request
  let _ ← putSteps spec
  return .inl ()

/-! ## Alone -/

/-- The entry, how many tasks were started, and whether the spec's client was built once already. -/
structure Alone where
  entry : Entry
  started : Nat
  built : Bool

namespace Alone

/-- The step is answered and done. -/
def after (alone : Alone) (op : PutOp) (answer : op.Ans) : op.Ans × Alone :=
  (answer, { alone with entry := op.does alone.entry answer })

/-- What a `put` that nothing disturbs is answered. -/
def answer (r : Registry) (env : Environment) (name : String) (alone : Alone) (op : PutOp) :
    op.Ans × Alone :=
  match op with
  | .request => (alone.entry.spec, alone)
  | .conflict listen => (r.conflict name listen, alone)
  | .client spec =>
      (Health.client (if alone.built then env.second else env.first) spec,
        { alone with built := true })
  | .moveListener listen =>
      if listen ≠ alone.entry.listen then
        match env.bind listen with
        | .error error => (.error error, alone)
        | .ok () =>
            { alone with started := alone.started + 1 }.after (.moveListener listen)
              (.ok alone.started)
      else alone.after (.moveListener listen) (.ok alone.started)
  | .setAddrs addrs => alone.after (.setAddrs addrs) ()
  | .setState spec made => alone.after (.setState spec made) ()
  | .notifyOne => alone.after .notifyOne ()
  | .changeVrrp spec vip => alone.after (.changeVrrp spec vip) alone.started
  | .setSpec spec => alone.after (.setSpec spec) ()
  | .lock | .unlock => ((), alone)

end Alone

section

variable {r : Registry} {env : Environment} {name : String} {spec : VipSpec} {c : Checked}
  {fromConfig : Bool} {e : Entry}

theorem setEntry_getElem?_self (r : Registry) (name : String) (e : Entry) :
    (r.setEntry name e).vips[name]? = some e := by
  rw [(Registry.setEntry_sameBesides name e rfl rfl rfl).getElem?, if_pos rfl]

theorem changeVrrp_fst (r : Registry) (spec : VipSpec) (vip : Option Ipv4Addr) (e : Entry) :
    (r.changeVrrp spec vip e).1 = PutOp.does e (.changeVrrp spec vip) r.started := by
  unfold Registry.changeVrrp
  simp only [PutOp.does]
  split <;> rfl

/-- The steps that nothing else refuses, done alone, make the same entry as `update`. -/
theorem putLocked_alone (present : r.vips[name]? = some e)
    (free : r.conflict name c.listen = none) :
    let served := (putLocked spec c).serve (Alone.answer r env name) ⟨e, r.started, false⟩
    served.1 = (r.update env name spec c e).1 ∧
      (r.update env name spec c e).2.vips[name]? = some served.2.entry := by
  unfold Registry.update healthOk
  cases built : Health.client env.first spec.health with
  | error error => simp [putLocked, Alone.answer, free, built, present]
  | ok first =>
      by_cases moves : c.listen ≠ e.listen
      · cases bound : env.bind c.listen with
        | error error =>
            simp [putLocked, Alone.answer, free, built, present, Registry.moveListener, moves, bind,
              bound]
        | ok _ =>
            cases again : Health.client env.second spec.health with
            | error error =>
                simp [putLocked, Alone.answer, Alone.after, PutOp.does, free, built, moves, bound,
                  again, Registry.moveListener, bind, Entry.moved, Checker.setSpec, health,
                  setEntry_getElem?_self]
            | ok made =>
                simp [putLocked, Alone.answer, Alone.after, PutOp.does, free, built, moves, bound,
                  again, Registry.moveListener, bind, Entry.moved, Checker.setSpec, health,
                  changeVrrp_fst, setEntry_getElem?_self]
      · cases again : Health.client env.second spec.health with
        | error error =>
            simp [putLocked, Alone.answer, Alone.after, PutOp.does, free, built, moves, again,
              Registry.moveListener, Entry.moved, Checker.setSpec, health,
              setEntry_getElem?_self]
        | ok made =>
            simp [putLocked, Alone.answer, Alone.after, PutOp.does, free, built, moves, again,
              Registry.moveListener, Entry.moved, Checker.setSpec, health,
              changeVrrp_fst, setEntry_getElem?_self]

/-- The steps, done alone, return what `put` returns and leave its entry. -/
theorem putSteps_alone (present : r.vips[name]? = some e) :
    let served := (putSteps spec).serve (Alone.answer r env name) ⟨e, r.started, false⟩
    served.1 = (r.put env name spec fromConfig).1 ∧
      (r.put env name spec fromConfig).2.vips[name]? = some served.2.entry := by
  unfold Registry.put putSteps
  cases checked : check spec with
  | error error => exact ⟨rfl, present⟩
  | ok c =>
      cases conflict : r.conflict name c.listen with
      | some other => simp [putLocked, Alone.answer, conflict, present]
      | none =>
          simp only [present, conflict, Program.bind_eq, PutOp.perform_eq, Program.call_bind,
            Program.done_bind, Program.serve_call, Program.serve_bind]
          exact putLocked_alone present conflict

end

end StormLb.Vips
