import StormLb.Config
import StormLb.Net.Addr
import StormLb.Text.Str

/-!
# VIP specs

What a VIP is, which names and specs are accepted, and what a refusal says.
-/

namespace StormLb.Vips

open StormLb.Net StormLb.Config

structure BackendSpec where
  address : String
  port : UInt16
  deriving DecidableEq, Repr

structure VrrpSpec where
  interface : String
  vrid : UInt8 := 51
  priority : UInt8 := 100
  preempt : Bool := true
  advertIntervalSecs : UInt64 := 1
  deriving DecidableEq, Repr

structure VipSpec where
  address : String
  port : UInt16
  /-- The address the listener binds; `address` itself when absent. -/
  bind : Option String := none
  backends : List BackendSpec := []
  health : HealthSpec := {}
  vrrp : Option VrrpSpec := none
  deriving DecidableEq, Repr

/-! ## Refusals -/

/-- What is wrong with a request. -/
inductive Invalid where
  | name (name : String)
  | address (address : String)
  | port
  | bind (bind : String)
  | backendAddress (address : String)
  | backendPort (address : String)
  | healthPath (path : String)
  | healthSecs
  | expectStatus
  | vrrpAddress
  | vrrpInterface
  | vrrpIds
  | vrrpInterval
  | health (error : String)
  deriving DecidableEq, Repr

/-- What a request conflicts with. -/
inductive Conflict where
  | changesConfig (name : String)
  | removesConfig (name : String)
  | listener (listen : SocketAddr) (other : String)
  | bind (error : String)
  deriving DecidableEq, Repr

/-- Why a change was not made (or not saved). -/
inductive ApplyError where
  | invalid (reason : Invalid)
  | conflict (reason : Conflict)
  | notFound (name : String)
  /-- Applied, but the state file could not be written. -/
  | notSaved (path error : String)
  deriving DecidableEq, Repr

/-- The text of a reason; `debug` writes a string as `{:?}` does. -/
def Invalid.display (debug : String → String) : Invalid → String
  | .name text => s!"VIP name {debug text}: 1–63 of [a-z0-9-], not starting or ending with '-'"
  | .address text => s!"address {debug text} is not an IP address"
  | .port => "port must be 1–65535"
  | .bind text => s!"bind {debug text} is not an IP address"
  | .backendAddress text => s!"backend address {debug text} is not an IP address"
  | .backendPort text => s!"backend {text}: port must be 1–65535"
  | .healthPath path => s!"health.path {debug path} must start with '/'"
  | .healthSecs => "health.interval_secs and health.timeout_secs must be at least 1"
  | .expectStatus => "health.expect_status must name at least one status"
  | .vrrpAddress => "vrrp needs an IPv4 address"
  | .vrrpInterface => "vrrp.interface is required"
  | .vrrpIds => "vrrp.vrid and vrrp.priority must be 1–255"
  | .vrrpInterval => "vrrp.advert_interval_secs must be 1–40"
  | .health error => s!"health: {error}"

def Conflict.display : Conflict → String
  | .changesConfig name => s!"{name} is the [vip] of the config file; change it there"
  | .removesConfig name => s!"{name} is the [vip] of the config file; remove it there"
  | .listener listen other => s!"{listen.display} is already VIP {other}'s listener"
  | .bind error => error

def ApplyError.display (debug : String → String) : ApplyError → String
  | .invalid reason => reason.display debug
  | .conflict reason => reason.display
  | .notFound name => s!"no VIP {name}"
  | .notSaved path error => s!"applied, but not saved to {path}: {error}"

/-! ## Names -/

def isNameChar (c : Char) : Bool :=
  ('a' ≤ c && c ≤ 'z') || ('0' ≤ c && c ≤ '9') || c == '-'

def validName (name : String) : Except ApplyError Unit :=
  let ok := name.toList ≠ [] ∧ (Text.bytesOf name).length ≤ 63 ∧ name.toList.all isNameChar = true ∧
    name.toList.head? ≠ some '-' ∧ name.toList.getLast? ≠ some '-'
  if ok then .ok () else .error (.invalid (.name name))

/-! ## Specs -/

/-- The validated form of a spec. -/
structure Checked where
  listen : SocketAddr
  backends : List SocketAddr
  vrrpVip : Option Ipv4Addr
  deriving DecidableEq, Repr

/-- Refuse when the condition holds. -/
def refuseIf (condition : Prop) [Decidable condition] (reason : Invalid) : Except ApplyError Unit :=
  if condition then .error (.invalid reason) else .ok ()

def parseOr (text : String) (reason : Invalid) : Except ApplyError IpAddr :=
  match IpAddr.parse text with
  | some ip => .ok ip
  | none => .error (.invalid reason)

def checkBackend (b : BackendSpec) : Except ApplyError SocketAddr := do
  let ip ← parseOr b.address (.backendAddress b.address)
  refuseIf (b.port = 0) (.backendPort b.address)
  return ⟨ip, b.port⟩

def checkHealth (h : HealthSpec) : Except ApplyError Unit := do
  refuseIf (h.path.toList.head? ≠ some '/') (.healthPath h.path)
  refuseIf (h.intervalSecs = 0 ∨ h.timeoutSecs = 0) .healthSecs
  refuseIf (h.expectStatus = []) .expectStatus

def checkVrrp (vip : IpAddr) (v : VrrpSpec) : Except ApplyError Ipv4Addr := do
  match vip with
  | .v6 _ => .error (.invalid .vrrpAddress)
  | .v4 v4 =>
      refuseIf (v.interface = "") .vrrpInterface
      refuseIf (v.vrid = 0 ∨ v.priority = 0) .vrrpIds
      refuseIf (v.advertIntervalSecs = 0 ∨ 40 < v.advertIntervalSecs) .vrrpInterval
      return v4

/-- The address to bind, `vip` itself by default. -/
def checkBind (vip : IpAddr) : Option String → Except ApplyError IpAddr
  | none => .ok vip
  | some b => parseOr b (.bind b)

def checkVrrpVip (vip : IpAddr) : Option VrrpSpec → Except ApplyError (Option Ipv4Addr)
  | none => .ok none
  | some v => some <$> checkVrrp vip v

/-- Validate a spec without touching anything running. -/
def check (spec : VipSpec) : Except ApplyError Checked := do
  let vip ← parseOr spec.address (.address spec.address)
  refuseIf (spec.port = 0) .port
  let bindIp ← checkBind vip spec.bind
  let backends ← spec.backends.mapM checkBackend
  checkHealth spec.health
  let vrrpVip ← checkVrrpVip vip spec.vrrp
  return { listen := ⟨bindIp, spec.port⟩, backends, vrrpVip }

/-! ## What an accepted spec says -/

/-- The address a spec's listener binds. -/
def VipSpec.listenAddr (spec : VipSpec) : Option SocketAddr :=
  (IpAddr.parse (spec.bind.getD spec.address)).map fun ip => ⟨ip, spec.port⟩

def BackendSpec.socketAddr (b : BackendSpec) : Option SocketAddr :=
  (IpAddr.parse b.address).map fun ip => ⟨ip, b.port⟩

theorem ok_of_bind {ε α β : Type} {first : Except ε α} {rest : α → Except ε β} {result : β}
    (ok : (first >>= rest) = .ok result) : ∃ a, first = .ok a ∧ rest a = .ok result := by
  cases first with
  | error e => cases ok
  | ok a => exact ⟨a, rfl, ok⟩

theorem parseOr_eq_ok_iff {text : String} {reason : Invalid} {ip : IpAddr} :
    parseOr text reason = .ok ip ↔ IpAddr.parse text = some ip := by
  unfold parseOr
  cases IpAddr.parse text with
  | none => simp
  | some found => simp

theorem checkBackend_eq_ok {b : BackendSpec} {addr : SocketAddr} (ok : checkBackend b = .ok addr) :
    b.socketAddr = some addr := by
  obtain ⟨ip, parsed, ok⟩ := ok_of_bind ok
  obtain ⟨_, _, same⟩ := ok_of_bind ok
  cases same
  rw [BackendSpec.socketAddr, parseOr_eq_ok_iff.mp parsed]
  rfl

theorem mapM_checkBackend_eq_ok {backends : List BackendSpec} {addrs : List SocketAddr}
    (ok : backends.mapM checkBackend = .ok addrs) :
    backends.mapM BackendSpec.socketAddr = some addrs := by
  induction backends generalizing addrs with
  | nil =>
      cases ok
      rfl
  | cons b rest ih =>
      rw [List.mapM_cons] at ok
      obtain ⟨addr, first, ok⟩ := ok_of_bind ok
      obtain ⟨others, later, same⟩ := ok_of_bind ok
      cases same
      rw [List.mapM_cons, checkBackend_eq_ok first, ih later]
      rfl

theorem checkBind_eq_ok {address : String} {reason : Invalid} {vip ip : IpAddr}
    {bind : Option String} (parsed : parseOr address reason = .ok vip)
    (ok : checkBind vip bind = .ok ip) : IpAddr.parse (bind.getD address) = some ip := by
  cases bind with
  | none =>
      cases ok
      exact parseOr_eq_ok_iff.mp parsed
  | some b => exact parseOr_eq_ok_iff.mp ok

theorem checkVrrpVip_eq_ok {vip : IpAddr} {vrrp : Option VrrpSpec} {vrrpVip : Option Ipv4Addr}
    (ok : checkVrrpVip vip vrrp = .ok vrrpVip) : vrrpVip.isSome = vrrp.isSome := by
  cases vrrp with
  | none =>
      cases ok
      rfl
  | some v =>
      rw [checkVrrpVip] at ok
      cases checked : checkVrrp vip v with
      | error e =>
          rw [checked] at ok
          cases ok
      | ok v4 =>
          rw [checked] at ok
          cases ok
          rfl

/-- What the validated form of an accepted spec is. -/
structure Checks (spec : VipSpec) (c : Checked) : Prop where
  listen : spec.listenAddr = some c.listen
  backends : spec.backends.mapM BackendSpec.socketAddr = some c.backends
  vrrpVip : c.vrrpVip.isSome = spec.vrrp.isSome

theorem checks_of_check {spec : VipSpec} {c : Checked} (ok : check spec = .ok c) : Checks spec c := by
  obtain ⟨vip, address, ok⟩ := ok_of_bind ok
  obtain ⟨_, _, ok⟩ := ok_of_bind ok
  obtain ⟨bindIp, bound, ok⟩ := ok_of_bind ok
  obtain ⟨backends, members, ok⟩ := ok_of_bind ok
  obtain ⟨_, _, ok⟩ := ok_of_bind ok
  obtain ⟨vrrpVip, owned, same⟩ := ok_of_bind ok
  cases same
  refine ⟨?_, mapM_checkBackend_eq_ok members, ?_⟩
  · rw [VipSpec.listenAddr, checkBind_eq_ok address bound]
    rfl
  · exact checkVrrpVip_eq_ok owned

theorem refuseIf_eq_ok {condition : Prop} [Decidable condition] {reason : Invalid} {value : Unit}
    (ok : refuseIf condition reason = .ok value) : ¬ condition := by
  intro holds
  rw [refuseIf, if_pos holds] at ok
  cases ok

/-- What is accepted of VRRP settings. -/
structure VrrpSpec.Accepted (v : VrrpSpec) : Prop where
  interface : v.interface ≠ ""
  vrid : v.vrid ≠ 0
  priority : v.priority ≠ 0
  interval : v.advertIntervalSecs ≠ 0 ∧ v.advertIntervalSecs ≤ 40

theorem checkVrrp_eq_ok {vip : IpAddr} {v : VrrpSpec} {v4 : Ipv4Addr}
    (ok : checkVrrp vip v = .ok v4) : vip = .v4 v4 ∧ v.Accepted := by
  cases vip with
  | v6 addr => cases ok
  | v4 addr =>
      obtain ⟨_, interface, ok⟩ := ok_of_bind ok
      obtain ⟨_, ids, ok⟩ := ok_of_bind ok
      obtain ⟨_, interval, same⟩ := ok_of_bind ok
      cases same
      obtain ⟨vrid, priority⟩ := not_or.mp (refuseIf_eq_ok ids)
      obtain ⟨least, most⟩ := not_or.mp (refuseIf_eq_ok interval)
      exact ⟨rfl, refuseIf_eq_ok interface, vrid, priority, least, UInt64.not_lt.mp most⟩

/-- An accepted spec with VRRP names an IPv4 address and accepted settings. -/
theorem vrrp_of_check {spec : VipSpec} {c : Checked} {v : VrrpSpec} (ok : check spec = .ok c)
    (owned : spec.vrrp = some v) :
    ∃ vip, c.vrrpVip = some vip ∧ IpAddr.parse spec.address = some (.v4 vip) ∧ v.Accepted := by
  obtain ⟨ip, address, ok⟩ := ok_of_bind ok
  obtain ⟨_, _, ok⟩ := ok_of_bind ok
  obtain ⟨bindIp, _, ok⟩ := ok_of_bind ok
  obtain ⟨backends, _, ok⟩ := ok_of_bind ok
  obtain ⟨_, _, ok⟩ := ok_of_bind ok
  obtain ⟨vrrpVip, checked, same⟩ := ok_of_bind ok
  cases same
  rw [owned, checkVrrpVip] at checked
  cases found : checkVrrp ip v with
  | error e =>
      rw [found] at checked
      cases checked
  | ok vip =>
      rw [found] at checked
      cases checked
      obtain ⟨rfl, accepted⟩ := checkVrrp_eq_ok found
      exact ⟨vip, rfl, parseOr_eq_ok_iff.mp address, accepted⟩

example : (check { address := "10.0.0.1", port := 443, backends := [⟨"10.0.0.2", 0⟩] }) =
    .error (.invalid (.backendPort "10.0.0.2")) := by decide

end StormLb.Vips
