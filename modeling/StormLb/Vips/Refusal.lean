import StormLb.Vips.Invariant

/-!
# Refused changes

A `put` that is refused leaves every entry as it was, with one exception: the
second read of the CA file comes after the listener was moved and the members
were set, and when it fails both stay changed under the old spec.
-/

namespace StormLb.Vips

open StormLb.Net StormLb.Health

/-- What of an entry a refused change must not touch. -/
structure Standing where
  spec : VipSpec
  listen : SocketAddr
  serve : Serve
  members : List Backend
  checker : StormLb.Config.HealthSpec
  vrrp : Option Handle
  deriving DecidableEq

def Entry.standing (e : Entry) : Standing where
  spec := e.spec
  listen := e.listen
  serve := e.serve
  members := e.pool.backends
  checker := e.checker.spec
  vrrp := e.vrrp

namespace Registry

/-- The same names with the same standing. -/
def Unchanged (r after : Registry) : Prop :=
  ∀ name : String, (after.vips[name]?).map Entry.standing = (r.vips[name]?).map Entry.standing

/--
When the second read of the CA file fails after all the checks passed, the
listener and the members are already those of the running entry.
-/
def NothingToUndo (r : Registry) (env : Environment) (name : String) (spec : VipSpec) : Prop :=
  ∀ c e message, r.Admits env name spec c e → client env.second spec.health = .error message →
    c.listen = e.listen ∧ c.backends.eraseDups = e.pool.addrs

variable {r : Registry} {env : Environment} {name : String} {spec : VipSpec}

/-- What a `put` does whose second read of the CA file fails. -/
theorem put_halfway {c : Checked} {e : Entry} {message : String} (fromConfig : Bool)
    (admits : r.Admits env name spec c e) (fails : client env.second spec.health = .error message) :
    ∃ after, r.put env name spec fromConfig = (.error (.invalid (.health message)), after) ∧
      r.SameBesides name (e.halfway r.started c) after := by
  have outcome := r.put_outcome env name spec fromConfig
  generalize r.put env name spec fromConfig = result at outcome ⊢
  cases outcome with
  | refused error refuses => exact absurd admits (refuses c e)
  | halfway admits' fails' same =>
      obtain ⟨rfl, rfl⟩ := admits.unique admits'
      obtain rfl := Except.error.inj (fails.symm.trans fails')
      exact ⟨_, rfl, same⟩
  | updated _ reloads _ _ =>
      obtain ⟨built, reloads⟩ := reloads
      rw [fails] at reloads
      cases reloads
  | created _ _ absent _ _ =>
      have present := admits.present
      rw [absent] at present
      cases present

/-- Half-way the entry has its old standing exactly when there was nothing to change. -/
theorem halfway_standing_iff (e : Entry) (id : Nat) (c : Checked) :
    (e.halfway id c).standing = e.standing ↔
      c.listen = e.listen ∧ c.backends.eraseDups = e.pool.addrs := by
  constructor
  · intro same
    have listen := congrArg Standing.listen same
    have members := congrArg Standing.members same
    refine ⟨?_, ?_⟩
    · simpa [Entry.standing, Entry.halfway] using listen
    · have addrs : (e.pool.setAddrs c.backends).addrs = e.pool.addrs := by
        simpa [Entry.standing, Entry.halfway, Pool.addrs] using
          congrArg (List.map Backend.addr) members
      rwa [Pool.setAddrs_addrs] at addrs
  · rintro ⟨listen, addrs⟩
    have kept := (Pool.setAddrs_eq_self_iff e.pool c.backends).mpr addrs
    simp [Entry.standing, Entry.halfway, Entry.moved, listen, kept]

/--
A refused `put` leaves every entry as it was exactly when the second read of
the CA file, if it is the one that fails, finds nothing to undo.
-/
theorem put_refused_unchanged_iff {fromConfig : Bool} {error : ApplyError} {after : Registry}
    (refused : r.put env name spec fromConfig = (.error error, after)) :
    r.Unchanged after ↔ r.NothingToUndo env name spec := by
  constructor
  · intro unchanged c e message admits fails
    obtain ⟨after', halfway, same⟩ := put_halfway fromConfig admits fails
    obtain rfl : after' = after := congrArg Prod.snd (halfway.symm.trans refused)
    have here := unchanged name
    rw [same.getElem?, if_pos rfl, admits.present] at here
    exact (halfway_standing_iff e r.started c).mp (Option.some.inj here)
  · intro nothing
    have outcome := r.put_outcome env name spec fromConfig
    rw [refused] at outcome
    cases outcome with
    | refused error refuses => exact fun _ => rfl
    | halfway admits fails same =>
        intro other
        rw [same.getElem?]
        split
        · rename_i here
          rw [here, admits.present, Option.map_some, Option.map_some,
            (halfway_standing_iff _ _ _).mpr (nothing _ _ _ admits fails)]
        · rfl

end Registry

/-! ## A CA file that is replaced meanwhile -/

/-- The CA file is there at the check and gone at the use. -/
def caFileVanishes : Environment where
  first := ⟨fun _ => .ok [0x43, 0x41], fun _ => .ok [[0x30]], fun _ => .ok ()⟩
  second := ⟨fun _ => .error "No such file or directory (os error 2)", fun _ => .ok [[0x30]],
    fun _ => .ok ()⟩
  bind := fun _ => .ok ()

/-- Without a state file nothing is serialized. -/
def unasked : Serde where
  toStringPretty := fun _ => ""
  fromStr := fun _ => .error "EOF while parsing a value at line 1 column 0"

/-- The API VIP `k8s` was created. -/
def created : List Operation :=
  [.apply unasked freeNode (fun _ _ => .ok ()) "k8s" apiservers]

def serving : Registry :=
  (Registry.new none).runAll created

/-- Two other apiservers, checked over TLS. -/
def otherApiservers : VipSpec :=
  { apiservers with
    backends := [⟨"192.168.8.100", 6443⟩, ⟨"192.168.8.101", 6443⟩]
    health := { mode := .https, caFile := some "/data/stormcert/ca.crt" } }

theorem serving_put_caFileVanishes :
    serving.put caFileVanishes "k8s" otherApiservers false =
      (.error (.invalid (.health
        "health.ca_file /data/stormcert/ca.crt: No such file or directory (os error 2)")),
        (serving.put caFileVanishes "k8s" otherApiservers false).2) :=
  Prod.ext (by decide +kernel) rfl

/-- The refused change has replaced the members. -/
theorem put_refused_changes_members :
    ¬ ∀ (stateFile : Option String) (operations : List Operation) (env : Environment)
      (name : String) (spec : VipSpec) (fromConfig : Bool) (error : ApplyError) (after : Registry),
      ((Registry.new stateFile).runAll operations).put env name spec fromConfig =
          (.error error, after) →
        ((Registry.new stateFile).runAll operations).Unchanged after := by
  intro unchanged
  have here := unchanged none created caFileVanishes "k8s" otherApiservers false _ _
    serving_put_caFileVanishes "k8s"
  exact absurd here (by decide +kernel)

theorem put_refused_unchanged_iff_serving :
    serving.Unchanged (serving.put caFileVanishes "k8s" otherApiservers false).2 ↔
      serving.NothingToUndo caFileVanishes "k8s" otherApiservers :=
  Registry.put_refused_unchanged_iff serving_put_caFileVanishes

end StormLb.Vips
