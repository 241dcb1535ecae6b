import Mathlib.Data.List.Induction
import Mathlib.Data.List.Nodup
import StormLb.Net.Addr

/-!
# The backend pool

The members behind a VIP.  Replacing them keeps the object, and so the health,
of an address that stays; an object is known by a number of its own.
-/

namespace StormLb

open StormLb.Net

/-- A single upstream backend. -/
structure Backend where
  id : Nat
  addr : SocketAddr
  healthy : Bool
  deriving DecidableEq, Repr

/-- A backend starts unhealthy. -/
def Backend.new (id : Nat) (addr : SocketAddr) : Backend :=
  { id, addr, healthy := false }

/-- The members of a VIP, no address twice, and the round-robin counter. -/
structure Pool where
  backends : List Backend
  next : UInt64
  /-- How many backend objects this pool has made so far. -/
  made : Nat
  distinct : (backends.map Backend.addr).Nodup
  deriving DecidableEq

namespace Pool

/-- One address of `set_addrs`: dropped when already taken, else an old member or a new one. -/
def takeAddr (cur : List Backend) (state : List Backend × Nat) (a : SocketAddr) :
    List Backend × Nat :=
  let (next, made) := state
  if next.any (fun b => b.addr == a) then (next, made)
  else
    match cur.find? fun b => b.addr == a with
    | some b => (next ++ [b], made)
    | none => (next ++ [Backend.new made a], made + 1)

def takeAddrs (cur : List Backend) (made : Nat) (addrs : List SocketAddr) : List Backend × Nat :=
  addrs.foldl (takeAddr cur) ([], made)

theorem any_addr_iff {members : List Backend} {a : SocketAddr} :
    members.any (fun b => b.addr == a) = true ↔ a ∈ members.map Backend.addr := by
  simp

/-- The members after one address: the old ones, and the address if it is new. -/
theorem takeAddr_addrs (cur : List Backend) (state : List Backend × Nat) (a : SocketAddr) :
    (takeAddr cur state a).1.map Backend.addr =
      if a ∈ state.1.map Backend.addr then state.1.map Backend.addr
      else state.1.map Backend.addr ++ [a] := by
  obtain ⟨next, made⟩ := state
  by_cases present : a ∈ next.map Backend.addr
  · simp only [takeAddr, any_addr_iff, if_pos present]
  · simp only [takeAddr, any_addr_iff, if_neg present]
    cases found : cur.find? fun b => b.addr == a with
    | none => simp [Backend.new]
    | some b =>
        have same : b.addr = a := by simpa using List.find?_some found
        simp [same]

theorem takeAddrs_concat (cur : List Backend) (made : Nat) (addrs : List SocketAddr)
    (a : SocketAddr) :
    takeAddrs cur made (addrs ++ [a]) = takeAddr cur (takeAddrs cur made addrs) a := by
  simp [takeAddrs]

theorem eraseDups_concat (addrs : List SocketAddr) (a : SocketAddr) :
    (addrs ++ [a]).eraseDups = if a ∈ addrs then addrs.eraseDups else addrs.eraseDups ++ [a] := by
  by_cases present : a ∈ addrs
  · simp [List.eraseDups_append, List.cons_removeAll, present]
  · simp [List.eraseDups_append, List.cons_removeAll, List.eraseDups_cons, present]

/-- The members are the addresses in order of first occurrence. -/
theorem takeAddrs_addrs (cur : List Backend) (made : Nat) (addrs : List SocketAddr) :
    (takeAddrs cur made addrs).1.map Backend.addr = addrs.eraseDups := by
  induction addrs using List.reverseRecOn with
  | nil => rfl
  | append_singleton addrs a ih =>
      rw [takeAddrs_concat, takeAddr_addrs, ih, eraseDups_concat]
      simp only [List.mem_eraseDups]

theorem nodup_eraseDups (addrs : List SocketAddr) : addrs.eraseDups.Nodup := by
  induction addrs using List.reverseRecOn with
  | nil => exact List.nodup_nil
  | append_singleton addrs a ih =>
      rw [eraseDups_concat]
      split
      · exact ih
      · rename_i absent
        rw [← List.concat_eq_append]
        exact ih.concat (by simpa using absent)

/-- When nothing is new, nothing is made, and each address keeps its object. -/
theorem takeAddrs_of_subset {cur : List Backend} {addrs : List SocketAddr} (made : Nat)
    (known : ∀ a ∈ addrs, a ∈ cur.map Backend.addr) :
    takeAddrs cur made addrs =
      (addrs.eraseDups.filterMap fun a => cur.find? fun b => b.addr == a, made) := by
  induction addrs using List.reverseRecOn with
  | nil => rfl
  | append_singleton addrs a ih =>
      have earlier := ih fun a member => known a (List.mem_append_left _ member)
      have taken := takeAddrs_addrs cur made addrs
      rw [earlier] at taken
      rw [takeAddrs_concat, earlier, eraseDups_concat]
      by_cases present : a ∈ addrs
      · have again : a ∈ (addrs.eraseDups.filterMap fun a => cur.find? fun b => b.addr == a).map
            Backend.addr := by
          rw [taken]
          exact List.mem_eraseDups.mpr present
        rw [if_pos present, takeAddr, if_pos (any_addr_iff.mpr again)]
      · have first : a ∉ (addrs.eraseDups.filterMap fun a => cur.find? fun b => b.addr == a).map
            Backend.addr := by
          rw [taken]
          exact fun member => present (List.mem_eraseDups.mp member)
        obtain ⟨b, found⟩ : ∃ b, (cur.find? fun b => b.addr == a) = some b := by
          have member := known a (by simp)
          rw [← Option.isSome_iff_exists, List.find?_isSome]
          simpa using member
        rw [if_neg present, takeAddr, if_neg (any_addr_iff.not.mpr first), found]
        simp [List.filterMap_append, found]

/-- Replace the members. -/
def setAddrs (pool : Pool) (addrs : List SocketAddr) : Pool :=
  let taken := takeAddrs pool.backends pool.made addrs
  { pool with
    backends := taken.1
    made := taken.2
    distinct := by
      rw [takeAddrs_addrs]
      exact nodup_eraseDups addrs }

def empty : Pool where
  backends := []
  next := 0
  made := 0
  distinct := List.nodup_nil

def new (addrs : List SocketAddr) : Pool :=
  empty.setAddrs addrs

def addrs (pool : Pool) : List SocketAddr :=
  pool.backends.map Backend.addr

/-- `set_healthy` on the object with this number, if it still is a member. -/
def setHealthy (pool : Pool) (id : Nat) (healthy : Bool) : Pool :=
  { pool with
    backends := pool.backends.map fun b => if b.id = id then { b with healthy } else b
    distinct := by
      have same : (pool.backends.map fun b => if b.id = id then { b with healthy } else b).map
          Backend.addr = pool.backends.map Backend.addr := by
        rw [List.map_map]
        refine List.map_congr_left fun b _ => ?_
        simp only [Function.comp_apply]
        split <;> rfl
      rw [same]
      exact pool.distinct }

def healthyCount (pool : Pool) : Nat :=
  (pool.backends.filter Backend.healthy).length

/-- The next healthy backend, round-robin; the counter moves on unless the pool is empty. -/
def pick (pool : Pool) : Option Backend × Pool :=
  let n := pool.backends.length
  if n = 0 then (none, pool)
  else
    let start := pool.next
    let healthyAt (i : Nat) : Option Backend :=
      (pool.backends[(start + UInt64.ofNat i).toNat % n]?).filter Backend.healthy
    ((List.range n).findSome? healthyAt, { pool with next := start + 1 })

/-! ## The members -/

@[simp] theorem setAddrs_addrs (pool : Pool) (addrs : List SocketAddr) :
    (pool.setAddrs addrs).addrs = addrs.eraseDups :=
  takeAddrs_addrs pool.backends pool.made addrs

@[simp] theorem new_addrs (addrs : List SocketAddr) : (new addrs).addrs = addrs.eraseDups :=
  setAddrs_addrs empty addrs

@[simp] theorem setHealthy_addrs (pool : Pool) (id : Nat) (healthy : Bool) :
    (pool.setHealthy id healthy).addrs = pool.addrs := by
  simp only [Pool.addrs, setHealthy, List.map_map]
  refine List.map_congr_left fun b _ => ?_
  simp only [Function.comp_apply]
  split <;> rfl

@[simp] theorem pick_addrs (pool : Pool) : pool.pick.2.addrs = pool.addrs := by
  unfold pick
  dsimp only
  split <;> rfl

/-- Looking each member's address up finds the member. -/
theorem filterMap_find?_addrs {members : List Backend}
    (distinct : (members.map Backend.addr).Nodup) :
    ((members.map Backend.addr).filterMap fun a => members.find? fun b => b.addr == a) =
      members := by
  have found : ∀ b ∈ members, (members.find? fun other => other.addr == b.addr) = some b := by
    intro b member
    obtain ⟨other, same⟩ : ∃ other, (members.find? fun other => other.addr == b.addr) = some other := by
      rw [← Option.isSome_iff_exists, List.find?_isSome]
      exact ⟨b, member, by simp⟩
    have addr : other.addr = b.addr := by simpa using List.find?_some same
    rw [same, List.inj_on_of_nodup_map distinct (List.mem_of_find?_eq_some same) member addr]
  rw [List.filterMap_map]
  calc members.filterMap ((fun a => members.find? fun b => b.addr == a) ∘ Backend.addr)
      = members.filterMap some := List.filterMap_congr found
    _ = members := List.filterMap_some

/-- Setting the members a pool already has changes nothing at all. -/
theorem setAddrs_eq_self_iff (pool : Pool) (addrs : List SocketAddr) :
    pool.setAddrs addrs = pool ↔ addrs.eraseDups = pool.addrs := by
  constructor
  · intro same
    rw [← setAddrs_addrs pool, same]
  · intro same
    have known : ∀ a ∈ addrs, a ∈ pool.backends.map Backend.addr := by
      intro a member
      rw [← Pool.addrs, ← same]
      exact List.mem_eraseDups.mpr member
    have taken := takeAddrs_of_subset pool.made known
    rw [same, Pool.addrs, filterMap_find?_addrs pool.distinct] at taken
    obtain ⟨backends, next, made, distinct⟩ := pool
    simp [setAddrs, taken]

/-! ## The objects -/

/-- Every object was made by this pool, and no two members are one object. -/
structure Sound (pool : Pool) : Prop where
  made : ∀ b ∈ pool.backends, b.id < pool.made
  apart : ∀ b ∈ pool.backends, ∀ other ∈ pool.backends, b.id = other.id → b = other

/-- What `set_addrs` takes: old members, and new ones for addresses that had none. -/
structure Takes (cur : List Backend) (made : Nat) (state : List Backend × Nat) : Prop where
  grows : made ≤ state.2
  origin : ∀ b ∈ state.1, b ∈ cur ∨
    (b.healthy = false ∧ made ≤ b.id ∧ b.id < state.2 ∧ b.addr ∉ cur.map Backend.addr)
  apart : ∀ b ∈ state.1, ∀ other ∈ state.1, b.id = other.id → b = other

theorem Takes.takeAddr {cur : List Backend} {made : Nat} {state : List Backend × Nat}
    (old : ∀ b ∈ cur, b.id < made) (objects : ∀ b ∈ cur, ∀ other ∈ cur, b.id = other.id → b = other)
    (takes : Takes cur made state) (a : SocketAddr) : Takes cur made (takeAddr cur state a) := by
  obtain ⟨next, count⟩ := state
  obtain ⟨grows, origin, apart⟩ := takes
  simp only at grows origin apart
  rw [Pool.takeAddr]
  split
  · exact ⟨grows, origin, apart⟩
  · rename_i absent
    have absent : a ∉ next.map Backend.addr := any_addr_iff.not.mp absent
    -- The one that is added is none of those taken before.
    have add : ∀ (b : Backend) (count' : Nat), b.addr = a → count ≤ count' →
        (b ∈ cur ∨ (b.healthy = false ∧ made ≤ b.id ∧ b.id < count' ∧
          b.addr ∉ cur.map Backend.addr)) →
        (∀ other ∈ next, b.id = other.id → b = other) → Takes cur made (next ++ [b], count') := by
      intro b count' addr more from_ fresh
      refine ⟨le_trans grows more, ?_, ?_⟩
      · intro other member
        rcases List.mem_append.mp member with before | here
        · rcases origin other before with old | ⟨sick, least, most, unknown⟩
          · exact .inl old
          · exact .inr ⟨sick, least, lt_of_lt_of_le most more, unknown⟩
        · rw [List.mem_singleton.mp here]
          exact from_
      · intro one memberOne two memberTwo same
        rcases List.mem_append.mp memberOne with first | first
        · rcases List.mem_append.mp memberTwo with second | second
          · exact apart one first two second same
          · obtain rfl := List.mem_singleton.mp second
            exact (fresh one first same.symm).symm
        · obtain rfl := List.mem_singleton.mp first
          rcases List.mem_append.mp memberTwo with second | second
          · exact fresh two second same
          · rw [List.mem_singleton.mp second]
    cases found : cur.find? fun b => b.addr == a with
    | some b =>
        have member := List.mem_of_find?_eq_some found
        have addr : b.addr = a := by simpa using List.find?_some found
        refine add b count addr le_rfl (.inl member) fun other taken same => ?_
        rcases origin other taken with other_old | ⟨_, least, _, _⟩
        · exact objects b member other other_old same
        · have below := old b member
          omega
    | none =>
        have unknown : a ∉ cur.map Backend.addr := by
          intro known
          obtain ⟨b, member, addr⟩ := List.mem_map.mp known
          exact List.find?_eq_none.mp found b member (by simpa using addr)
        refine add (Backend.new count a) (count + 1) rfl (Nat.le_succ _)
          (.inr ⟨rfl, grows, Nat.lt_succ_self _, unknown⟩) fun other taken same => ?_
        have same : count = other.id := same
        rcases origin other taken with other_old | ⟨_, _, most, _⟩
        · have below := old other other_old
          omega
        · omega

theorem takes_takeAddrs {pool : Pool} (sound : pool.Sound) (addrs : List SocketAddr) :
    Takes pool.backends pool.made (takeAddrs pool.backends pool.made addrs) := by
  induction addrs using List.reverseRecOn with
  | nil => exact ⟨le_rfl, by simp [takeAddrs], by simp [takeAddrs]⟩
  | append_singleton addrs a ih =>
      rw [takeAddrs_concat]
      exact ih.takeAddr sound.made sound.apart a

theorem empty_sound : empty.Sound :=
  ⟨by simp [empty], by simp [empty]⟩

theorem setAddrs_sound {pool : Pool} (sound : pool.Sound) (addrs : List SocketAddr) :
    (pool.setAddrs addrs).Sound := by
  have takes := takes_takeAddrs sound addrs
  refine ⟨fun b member => ?_, takes.apart⟩
  rcases takes.origin b member with old | ⟨_, _, most, _⟩
  · exact lt_of_lt_of_le (sound.made b old) takes.grows
  · exact most

/-- A member was one already, or is new, unhealthy and an object of its own. -/
theorem mem_setAddrs {pool : Pool} (sound : pool.Sound) {addrs : List SocketAddr} {b : Backend}
    (member : b ∈ (pool.setAddrs addrs).backends) :
    b ∈ pool.backends ∨ (b.healthy = false ∧ pool.made ≤ b.id ∧ b.addr ∉ pool.addrs) := by
  rcases (takes_takeAddrs sound addrs).origin b member with old | ⟨sick, least, _, unknown⟩
  · exact .inl old
  · exact .inr ⟨sick, least, unknown⟩

theorem mem_setHealthy {pool : Pool} {id : Nat} {healthy : Bool} {b : Backend} :
    b ∈ (pool.setHealthy id healthy).backends ↔
      ∃ before ∈ pool.backends, (if before.id = id then { before with healthy } else before) = b :=
  List.mem_map

theorem setHealthy_sound {pool : Pool} (sound : pool.Sound) (id : Nat) (healthy : Bool) :
    (pool.setHealthy id healthy).Sound := by
  have same : ∀ b : Backend, (if b.id = id then { b with healthy } else b).id = b.id := by
    intro b
    split <;> rfl
  refine ⟨fun b member => ?_, fun b member other memberOther ids => ?_⟩
  · obtain ⟨before, there, rfl⟩ := mem_setHealthy.mp member
    rw [same]
    exact sound.made before there
  · obtain ⟨before, there, rfl⟩ := mem_setHealthy.mp member
    obtain ⟨before', there', rfl⟩ := mem_setHealthy.mp memberOther
    rw [same, same] at ids
    rw [sound.apart before there before' there' ids]

@[simp] theorem pick_backends (pool : Pool) : pool.pick.2.backends = pool.backends := by
  unfold pick
  dsimp only
  split <;> rfl

@[simp] theorem pick_made (pool : Pool) : pool.pick.2.made = pool.made := by
  unfold pick
  dsimp only
  split <;> rfl

theorem pick_sound {pool : Pool} (sound : pool.Sound) : pool.pick.2.Sound := by
  refine ⟨?_, ?_⟩
  · rw [pick_backends, pick_made]
    exact sound.made
  · rw [pick_backends]
    exact sound.apart

/-- What is picked is a healthy member. -/
theorem mem_of_pick {pool : Pool} {b : Backend} (picked : pool.pick.1 = some b) :
    b ∈ pool.backends ∧ b.healthy = true := by
  unfold pick at picked
  dsimp only at picked
  split at picked
  · cases picked
  · obtain ⟨i, _, found⟩ := List.exists_of_findSome?_eq_some picked
    obtain ⟨here, healthy⟩ := Option.filter_eq_some_iff.mp found
    exact ⟨List.mem_of_getElem? here, healthy⟩

end Pool

end StormLb
