import StormLb.Config

/-!
# The health checker

A VIP's health spec and the HTTP client built from it.  Reading the CA file and
building the client are answered from outside.
-/

namespace StormLb.Health

open StormLb.Config

/-- A certificate in DER. -/
abbrev Certificate := List UInt8

/-- Which backend certificates a client accepts. -/
inductive Trust where
  | roots (certs : List Certificate)
  | anything
  deriving DecidableEq, Repr

/-- What an HTTP client is built from. -/
structure Client where
  timeoutSecs : UInt64
  trust : Trust
  deriving DecidableEq, Repr

/-- What the file system and the TLS library answer at one moment. -/
structure Outside where
  read : String → Except String (List UInt8)
  fromPemBundle : List UInt8 → Except String (List Certificate)
  build : Client → Except String Unit

/-- Put the context before an error, as `{:#}` writes it. -/
def context {α : Type} (what : String) : Except String α → Except String α
  | .ok value => .ok value
  | .error cause => .error s!"{what}: {cause}"

/-- Whom a client of the spec trusts. -/
def trust (outside : Outside) : Option String → Except String Trust
  | some path => do
      let pem ← context s!"health.ca_file {path}" (outside.read path)
      let certs ← context s!"health.ca_file {path}: not PEM" (outside.fromPemBundle pem)
      if certs = [] then .error s!"health.ca_file {path}: no certificate in it"
      else return .roots certs
  | none => return .anything

/-- The client an http or https check uses; a tcp check has none. -/
def client (outside : Outside) (spec : HealthSpec) : Except String (Option Client) :=
  if spec.mode = .tcp then .ok none
  else do
    let trust ← trust outside spec.caFile
    let c : Client := { timeoutSecs := max spec.timeoutSecs 1, trust }
    context "building the health-check client" (outside.build c)
    return some c

structure Checker where
  spec : HealthSpec
  client : Option Client
  /-- The permit of `Notify`: the health loop's next wait ends at once. -/
  wake : Bool
  deriving DecidableEq, Repr

namespace Checker

def new (outside : Outside) (spec : HealthSpec) : Except String Checker := do
  let c ← Health.client outside spec
  return { spec, client := c, wake := false }

/-- Replace the spec and wake the health loop. -/
def setSpec (outside : Outside) (_ : Checker) (spec : HealthSpec) : Except String Checker := do
  let c ← Health.client outside spec
  return { spec, client := c, wake := true }

theorem new_eq_ok {outside : Outside} {spec : HealthSpec} {checker : Checker}
    (ok : new outside spec = .ok checker) : checker.spec = spec := by
  unfold new at ok
  cases built : Health.client outside spec with
  | error e =>
      rw [built] at ok
      cases ok
  | ok c =>
      rw [built] at ok
      cases ok
      rfl

theorem setSpec_eq_ok {outside : Outside} {old checker : Checker} {spec : HealthSpec}
    (ok : old.setSpec outside spec = .ok checker) : checker.spec = spec := by
  unfold setSpec at ok
  cases built : Health.client outside spec with
  | error e =>
      rw [built] at ok
      cases ok
  | ok c =>
      rw [built] at ok
      cases ok
      rfl

theorem setSpec_loads {outside : Outside} {old checker : Checker} {spec : HealthSpec}
    (ok : old.setSpec outside spec = .ok checker) : ∃ c, Health.client outside spec = .ok c := by
  unfold setSpec at ok
  cases built : Health.client outside spec with
  | error e =>
      rw [built] at ok
      cases ok
  | ok c => exact ⟨c, rfl⟩

theorem new_client {outside : Outside} {spec : HealthSpec} {checker : Checker}
    (ok : new outside spec = .ok checker) : Health.client outside spec = .ok checker.client := by
  unfold new at ok
  cases built : Health.client outside spec with
  | error e =>
      rw [built] at ok
      cases ok
  | ok c =>
      rw [built] at ok
      cases ok
      rfl

/-- Setting a spec leaves nothing of the checker before. -/
theorem setSpec_eq_ok_iff {outside : Outside} {old checker : Checker} {spec : HealthSpec} :
    old.setSpec outside spec = .ok checker ↔
      ∃ c, Health.client outside spec = .ok c ∧ checker = { spec, client := c, wake := true } := by
  unfold setSpec
  cases Health.client outside spec with
  | error e =>
      constructor
      · intro impossible
        cases impossible
      · rintro ⟨c, impossible, _⟩
        cases impossible
  | ok c =>
      constructor
      · intro ok
        exact ⟨c, rfl, (Except.ok.inj ok).symm⟩
      · rintro ⟨c', same, rfl⟩
        cases same
        rfl

theorem new_error {outside : Outside} {spec : HealthSpec} {error : String}
    (failed : new outside spec = .error error) : Health.client outside spec = .error error := by
  unfold new at failed
  cases built : Health.client outside spec with
  | error e =>
      rw [built] at failed
      cases failed
      rfl
  | ok c =>
      rw [built] at failed
      cases failed

/-- The spec is refused exactly when its client cannot be built. -/
theorem setSpec_eq_error_iff {outside : Outside} {old : Checker} {spec : HealthSpec}
    {error : String} :
    old.setSpec outside spec = .error error ↔ Health.client outside spec = .error error := by
  unfold setSpec
  cases Health.client outside spec with
  | error e =>
      constructor
      · intro same
        cases same
        rfl
      · intro same
        cases same
        rfl
  | ok c => constructor <;> intro impossible <;> cases impossible

end Checker

end StormLb.Health
