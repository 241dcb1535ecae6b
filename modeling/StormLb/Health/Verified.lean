import StormLb.Effects.Membership
import StormLb.Effects.Threads
import StormLb.Health.Loop

/-!
# Traffic only goes to verified members

Health rounds write flags through the members of a snapshot, while members are
replaced and picked.  A member's flag is what was last written for it by a round
that began since it became one, however stale the other rounds are.
-/

namespace StormLb.Health

open StormLb.Net StormLb.Effects StormLb.Membership

/-- A pool, what happened to it, and when each loop took its latest snapshot. -/
structure Watched (ι : Type) where
  pool : Pool
  log : List (Event SocketAddr)
  began : ι → Nat

namespace Watched

variable {ι : Type}

/-- A pool that was just made. -/
def new (addrs : List SocketAddr) : Watched ι where
  pool := Pool.new addrs
  log := [.replaced addrs]
  began := fun _ => 0

/-- What an operation of loop `i` may be answered, and what it does to the pool. -/
def serve [DecidableEq ι] (i : ι) (watched : Watched ι) (op : Op) (answer : op.Ans) :
    Option (Watched ι) :=
  match op, answer with
  | .backends, members =>
      if members = watched.pool.backends then
        some { watched with began := Function.update watched.began i watched.log.length }
      else none
  | .setHealthy be ok, _ =>
      some { watched with
        pool := watched.pool.setHealthy be.id ok
        log := .wrote (watched.began i) be.addr ok :: watched.log }
  | _, _ => some watched

def setAddrs (watched : Watched ι) (addrs : List SocketAddr) : Watched ι :=
  { watched with pool := watched.pool.setAddrs addrs, log := .replaced addrs :: watched.log }

def pick (watched : Watched ι) : Watched ι :=
  { watched with
    pool := watched.pool.pick.2
    log := .picked (watched.pool.pick.1.map Backend.addr) :: watched.log }

end Watched

/-- Health loops over one pool, whose members are replaced and picked meanwhile. -/
def watchers (ι : Type) [DecidableEq ι] :
    Threads ι Op Op.Ans Unit Empty (Watched ι) where
  first _ := round
  body _ _ := round
  serves := Watched.serve
  drifts watched after := (∃ addrs, after = watched.setAddrs addrs) ∨ after = watched.pick

/-- Where the loops stand, what they did, and the pool. -/
abbrev Watch (ι : Type) := Config ι Op Op.Ans Unit Empty (Watched ι)

/-- A member's flag is what was last written by a round that began since it became one. -/
def Flagged (pool : Pool) (log : List (Event SocketAddr)) : Prop :=
  ∀ b ∈ pool.backends, ∃ since, memberSince b.addr log = some since ∧
    (b.healthy = true ↔ lastWritten b.addr since log = some true)

/-- What traffic relies on. -/
structure Verified {ι : Type} (watched : Watched ι) : Prop where
  members : ∃ addrs, lastReplaced watched.log = some addrs ∧ watched.pool.addrs = addrs.eraseDups
  distinct : watched.pool.addrs.Nodup
  healthy : Flagged watched.pool watched.log
  picked : ∀ addr past, .picked (some addr) :: past <:+ watched.log →
    ∃ since, memberSince addr past = some since ∧ lastWritten addr since past = some true

/-! ## What each event does to flags and snapshots -/

/-- The object is the one member of its address since before the moment, or no member. -/
def Tracks (pool : Pool) (log : List (Event SocketAddr)) (moment : Nat) (item : Backend) : Prop :=
  item.id < pool.made ∧ ∀ b ∈ pool.backends, b.id = item.id ↔
    item.addr = b.addr ∧ ∃ since, memberSince b.addr log = some since ∧ since < moment

section

variable {pool : Pool} {log : List (Event SocketAddr)} {addrs : List SocketAddr}

/-- A member after `set_addrs` stays since it was one, or is one since now. -/
theorem mem_setAddrs_since (sound : pool.Sound)
    (absent : ∀ a, a ∉ pool.addrs → memberSince a log = none) (flagged : Flagged pool log)
    {b : Backend} (member : b ∈ (pool.setAddrs addrs).backends) :
    (b ∈ pool.backends ∧ memberSince b.addr (.replaced addrs :: log) = memberSince b.addr log) ∨
    (b.healthy = false ∧ pool.made ≤ b.id ∧
      memberSince b.addr (.replaced addrs :: log) = some log.length) := by
  have named : b.addr ∈ addrs := by
    have there : b.addr ∈ (pool.setAddrs addrs).addrs := List.mem_map_of_mem member
    rw [Pool.setAddrs_addrs] at there
    exact List.mem_eraseDups.mp there
  rcases Pool.mem_setAddrs sound member with old | ⟨sick, least, unknown⟩
  · obtain ⟨since, before, _⟩ := flagged b old
    exact .inl ⟨old, by rw [memberSince, if_pos named, before, Option.getD_some]⟩
  · exact .inr ⟨sick, least, by rw [memberSince, if_pos named, absent _ unknown, Option.getD_none]⟩

theorem Flagged.setAddrs (sound : pool.Sound) (timed : Timed log)
    (absent : ∀ a, a ∉ pool.addrs → memberSince a log = none) (flagged : Flagged pool log) :
    Flagged (pool.setAddrs addrs) (.replaced addrs :: log) := by
  intro b member
  rcases mem_setAddrs_since sound absent flagged member with ⟨old, same⟩ | ⟨sick, _, new⟩
  · rw [same]
    exact flagged b old
  · refine ⟨log.length, new, ?_⟩
    have unwritten := lastWritten_of_length_le b.addr timed (Nat.le_refl log.length)
    rw [sick, lastWritten_replaced, unwritten]
    simp

theorem Tracks.setAddrs (sound : pool.Sound)
    (absent : ∀ a, a ∉ pool.addrs → memberSince a log = none) (flagged : Flagged pool log)
    {moment : Nat} (early : moment ≤ log.length) {item : Backend}
    (tracks : Tracks pool log moment item) :
    Tracks (pool.setAddrs addrs) (.replaced addrs :: log) moment item := by
  refine ⟨lt_of_lt_of_le tracks.1 (Pool.takes_takeAddrs sound addrs).grows, fun b member => ?_⟩
  rcases mem_setAddrs_since sound absent flagged member with ⟨old, same⟩ | ⟨_, least, new⟩
  · rw [same]
    exact tracks.2 b old
  · have made := tracks.1
    constructor
    · intro same
      omega
    · rintro ⟨_, since, is, before⟩
      rw [new] at is
      cases is
      omega

/-- A write through a snapshot reaches a member when its round counts for it. -/
theorem Flagged.setHealthy {moment : Nat} {item : Backend} {ok : Bool}
    (tracks : Tracks pool log moment item) (flagged : Flagged pool log) :
    Flagged (pool.setHealthy item.id ok) (.wrote moment item.addr ok :: log) := by
  intro b member
  obtain ⟨before, there, rfl⟩ := Pool.mem_setHealthy.mp member
  obtain ⟨since, is, flag⟩ := flagged before there
  have counts := tracks.2 before there
  split
  · rename_i same
    obtain ⟨addr, other, is', early⟩ := counts.mp same
    obtain rfl := Option.some.inj (is.symm.trans is')
    refine ⟨since, is, ?_⟩
    rw [lastWritten, if_pos ⟨addr, early⟩]
    exact Option.some_inj.symm
  · rename_i apart
    refine ⟨since, is, ?_⟩
    rw [lastWritten, if_neg]
    · exact flag
    · rintro ⟨addr, early⟩
      exact apart (counts.mpr ⟨addr, since, is, early⟩)

theorem Tracks.setHealthy {moment : Nat} {item : Backend} (tracks : Tracks pool log moment item)
    (id : Nat) (ok : Bool) {event : Event SocketAddr}
    (same : ∀ a, memberSince a (event :: log) = memberSince a log) :
    Tracks (pool.setHealthy id ok) (event :: log) moment item := by
  refine ⟨tracks.1, fun b member => ?_⟩
  obtain ⟨before, there, rfl⟩ := Pool.mem_setHealthy.mp member
  have counts := tracks.2 before there
  rw [same]
  split
  · exact counts
  · exact counts

/-- A snapshot's items are the members of now. -/
theorem tracks_now (sound : pool.Sound) (flagged : Flagged pool log) {item : Backend}
    (member : item ∈ pool.backends) : Tracks pool log log.length item := by
  refine ⟨sound.made item member, fun b there => ?_⟩
  constructor
  · intro same
    obtain rfl := sound.apart b there item member same
    obtain ⟨since, is, _⟩ := flagged b there
    exact ⟨rfl, since, is, memberSince_lt is⟩
  · rintro ⟨addr, _⟩
    rw [List.inj_on_of_nodup_map pool.distinct there member addr.symm]

end

/-! ## The invariant -/

structure Watching {ι : Type} (config : Watch ι) : Prop where
  verified : Verified config.world
  sound : config.world.pool.Sound
  timed : Timed config.world.log
  began : ∀ i, config.world.began i ≤ config.world.log.length
  tracks : ∀ i, ∀ item ∈ snapshot (config.histories i),
    Tracks config.world.pool config.world.log (config.world.began i) item

section

variable {ι : Type} {watched : Watched ι}

theorem Verified.absent (verified : Verified watched) :
    ∀ a, a ∉ watched.pool.addrs → memberSince a watched.log = none := by
  intro a absent
  obtain ⟨addrs, last, same⟩ := verified.members
  rw [← Option.not_isSome_iff_eq_none, memberSince_isSome_iff]
  rintro ⟨members, replaced, member⟩
  obtain rfl := Option.some.inj (last.symm.trans replaced)
  rw [same] at absent
  exact absent (List.mem_eraseDups.mpr member)

/-- What was picked before an event that picks nothing. -/
theorem picked_cons {log : List (Event SocketAddr)} {event : Event SocketAddr}
    (other : ∀ addr, event ≠ .picked (some addr))
    (picked : ∀ addr past, .picked (some addr) :: past <:+ log →
      ∃ since, memberSince addr past = some since ∧ lastWritten addr since past = some true) :
    ∀ addr past, .picked (some addr) :: past <:+ event :: log →
      ∃ since, memberSince addr past = some since ∧ lastWritten addr since past = some true := by
  intro addr past suffix
  rcases List.suffix_cons_iff.mp suffix with same | earlier
  · exact absurd (List.cons.inj same).1.symm (other addr)
  · exact picked addr past earlier

theorem new_verified (addrs : List SocketAddr) : Verified (Watched.new addrs : Watched ι) where
  members := ⟨addrs, rfl, Pool.new_addrs addrs⟩
  distinct := (Pool.new addrs).distinct
  healthy := by
    refine Flagged.setAddrs Pool.empty_sound trivial (fun _ _ => rfl) ?_
    intro b member
    cases member
  picked := picked_cons (fun addr same => by cases same) fun addr past suffix => by
    have := List.eq_nil_of_suffix_nil suffix
    cases this

theorem setAddrs_verified (sound : watched.pool.Sound) (timed : Timed watched.log)
    (verified : Verified watched) (addrs : List SocketAddr) : Verified (watched.setAddrs addrs) where
  members := ⟨addrs, rfl, Pool.setAddrs_addrs watched.pool addrs⟩
  distinct := (watched.pool.setAddrs addrs).distinct
  healthy := verified.healthy.setAddrs sound timed verified.absent
  picked := picked_cons (fun addr same => by cases same) verified.picked

theorem pick_verified (verified : Verified watched) : Verified watched.pick where
  members := by
    obtain ⟨addrs, last, same⟩ := verified.members
    exact ⟨addrs, last, (Pool.pick_addrs watched.pool).trans same⟩
  distinct := watched.pool.pick.2.distinct
  healthy := by
    intro b member
    rw [Watched.pick, Pool.pick_backends] at member
    exact verified.healthy b member
  picked := by
    intro addr past suffix
    rcases List.suffix_cons_iff.mp suffix with same | earlier
    · obtain ⟨now, rfl⟩ := List.cons.inj same
      obtain ⟨b, picked, rfl⟩ := Option.map_eq_some_iff.mp (Event.picked.inj now).symm
      obtain ⟨member, healthy⟩ := Pool.mem_of_pick picked
      obtain ⟨since, is, flag⟩ := verified.healthy b member
      exact ⟨since, is, flag.mp healthy⟩
    · exact verified.picked addr past earlier

end

section

variable {ι : Type} [DecidableEq ι] {addrs : List SocketAddr} {config : Watch ι}
  {allowed : Option ι → Watch ι → Prop}

/-- In every interleaving each loop writes only through its latest snapshot. -/
theorem keeps_loop
    (reached : Threads.Reaches (watchers ι) allowed ((watchers ι).initial (.new addrs)) config)
    (i : ι) :
    Program.Keeps Op.OfSnapshot (LoopPost (fun _ _ => True) fun _ _ => True)
      (config.threads i) (config.histories i) :=
  (reached.solo i).keeps keeps_round fun _ _ _ => keeps_round

theorem watching_initial (addrs : List SocketAddr) :
    Watching ((watchers ι).initial (.new addrs)) where
  verified := new_verified addrs
  sound := Pool.setAddrs_sound Pool.empty_sound addrs
  timed := trivial
  began _ := Nat.zero_le _
  tracks i item member := by cases member

/-- The members are replaced or picked. -/
theorem Watching.drift {world : Watched ι} (watching : Watching config)
    (moved : (watchers ι).drifts config.world world) : Watching { config with world } := by
  obtain ⟨verified, sound, timed, began, tracks⟩ := watching
  rcases moved with ⟨addrs, rfl⟩ | rfl
  · exact
      { verified := setAddrs_verified sound timed verified addrs
        sound := Pool.setAddrs_sound sound addrs
        timed := timed
        began := fun i => Nat.le_succ_of_le (began i)
        tracks := fun i item member =>
          (tracks i item member).setAddrs sound verified.absent verified.healthy (began i) }
  · refine
      { verified := pick_verified verified
        sound := Pool.pick_sound sound
        timed := timed
        began := fun i => Nat.le_succ_of_le (began i)
        tracks := fun i item member => ?_ }
    have before := tracks i item member
    unfold Tracks at before ⊢
    rw [Watched.pick, Pool.pick_backends, Pool.pick_made]
    exact before

/-- Loop `i` takes a snapshot. -/
theorem Watching.backends {i : ι} {next : List Backend → Prog (Unit ⊕ Empty)}
    (watching : Watching config) :
    Watching (config.advance i (next config.world.pool.backends)
      ⟨.backends, config.world.pool.backends⟩
      { config.world with
        began := Function.update config.world.began i config.world.log.length }) where
  verified :=
    { members := watching.verified.members
      distinct := watching.verified.distinct
      healthy := watching.verified.healthy
      picked := watching.verified.picked }
  sound := watching.sound
  timed := watching.timed
  began j := by
    change Function.update config.world.began i config.world.log.length j ≤ config.world.log.length
    by_cases own : j = i
    · rw [own, Function.update_self]
    · rw [Function.update_of_ne own]
      exact watching.began j
  tracks j item member := by
    by_cases own : j = i
    · subst own
      have member : item ∈ config.world.pool.backends := by
        simpa [Config.advance] using member
      have now := tracks_now watching.sound watching.verified.healthy member
      simpa [Config.advance] using now
    · have member : item ∈ snapshot (config.histories j) := by
        simpa [Config.advance, Function.update_of_ne own] using member
      have before := watching.tracks j item member
      simpa [Config.advance, Function.update_of_ne own] using before

/-- Only a new snapshot changes what a loop writes through. -/
theorem snapshot_advance {i : ι} {rest : Prog (Unit ⊕ Empty)} {event : Effects.Event Op Op.Ans}
    {world : Watched ι} (same : ∀ log, snapshot (event :: log) = snapshot log) (j : ι) :
    snapshot ((config.advance i rest event world).histories j) = snapshot (config.histories j) := by
  by_cases own : j = i
  · subst own
    simp [Config.advance, same]
  · simp [Config.advance, Function.update_of_ne own]

/-- Loop `i` writes the flag of one of its snapshot's members. -/
theorem Watching.setHealthy {i : ι} {be : Backend} {rest : Prog (Unit ⊕ Empty)} (ok : Bool)
    (watching : Watching config) (member : be ∈ snapshot (config.histories i)) :
    Watching (config.advance i rest ⟨.setHealthy be ok, ()⟩
      { config.world with
        pool := config.world.pool.setHealthy be.id ok
        log := .wrote (config.world.began i) be.addr ok :: config.world.log }) where
  verified :=
    { members := by
        obtain ⟨addrs, last, same⟩ := watching.verified.members
        exact ⟨addrs, last, (Pool.setHealthy_addrs ..).trans same⟩
      distinct := (config.world.pool.setHealthy be.id ok).distinct
      healthy := watching.verified.healthy.setHealthy (watching.tracks i be member)
      picked := picked_cons (fun addr same => by cases same) watching.verified.picked }
  sound := Pool.setHealthy_sound watching.sound be.id ok
  timed := ⟨watching.began i, watching.timed⟩
  began j := Nat.le_succ_of_le (watching.began j)
  tracks j item there := by
    rw [snapshot_advance fun _ => rfl] at there
    exact (watching.tracks j item there).setHealthy be.id ok fun _ => rfl

/-- Loop `i` does something else. -/
theorem Watching.advance {i : ι} {rest : Prog (Unit ⊕ Empty)} {event : Effects.Event Op Op.Ans}
    (watching : Watching config) (same : ∀ log, snapshot (event :: log) = snapshot log) :
    Watching (config.advance i rest event config.world) where
  verified := watching.verified
  sound := watching.sound
  timed := watching.timed
  began := watching.began
  tracks j item there := by
    rw [snapshot_advance same] at there
    exact watching.tracks j item there

theorem watching_of_reaches
    (reached : Threads.Reaches (watchers ι) allowed ((watchers ι).initial (.new addrs)) config) :
    Watching config := by
  refine reached.invariant (watching_initial addrs) ?_
  intro who config after reached watching admitted stepped
  cases stepped with
  | turn looped =>
      exact
        { verified := watching.verified
          sound := watching.sound
          timed := watching.timed
          began := watching.began
          tracks := watching.tracks }
  | drift moved => exact watching.drift moved
  | @call _ i op next world answer waiting served =>
      have keeps := keeps_loop reached i
      rw [waiting] at keeps
      have ofSnapshot := keeps.1
      change Watched.serve i config.world op answer = some world at served
      cases op with
      | backends =>
          rw [Watched.serve] at served
          split at served
          · rename_i same
            cases served
            cases same
            exact watching.backends
          · cases served
      | setHealthy be ok =>
          cases served
          exact watching.setHealthy ok ofSnapshot
      | state =>
          cases served
          exact watching.advance fun _ => rfl
      | connect timeoutSecs addr =>
          cases served
          exact watching.advance fun _ => rfl
      | get client url =>
          cases served
          exact watching.advance fun _ => rfl
      | notified timeoutSecs =>
          cases served
          exact watching.advance fun _ => rfl

/--
In every interleaving of health rounds, changes of the members and picks, the
members are those last set, and only ones whose last probe succeeded are picked.
-/
theorem verified_of_reaches
    (reached : Threads.Reaches (watchers ι) allowed ((watchers ι).initial (.new addrs)) config) :
    Verified config.world :=
  (watching_of_reaches reached).verified

end

/-! ## A member that is removed and added back while it is probed -/

/-- Everything that is probed answers. -/
def answering (_ : Unit) (watched : Watched Unit) (op : Op) : op.Ans :=
  match op with
  | .state => ({}, none)
  | .backends => watched.pool.backends
  | .connect .. => true
  | .get .. => some 200
  | .setHealthy .. => ()
  | .notified _ => ()

def firstApiserver : SocketAddr :=
  ⟨.v4 ⟨192, 168, 8, 98⟩, 6443⟩

def secondApiserver : SocketAddr :=
  ⟨.v4 ⟨192, 168, 8, 99⟩, 6443⟩

/-- So many steps of the loop. -/
def rounds (steps : Nat) (config : Watch Unit) : Watch Unit :=
  (watchers Unit).playSchedule Threads.anySchedule answering config (List.replicate steps ())

/-- The members are replaced. -/
def replaced (addrs : List SocketAddr) (config : Watch Unit) : Watch Unit :=
  { config with world := config.world.setAddrs addrs }

/-- A member is picked. -/
def picked (config : Watch Unit) : Watch Unit :=
  { config with world := config.world.pick }

def bothMembers : Watch Unit :=
  (watchers Unit).initial (.new [firstApiserver, secondApiserver])

/--
The loop has a snapshot of both members and has probed the first, which is
removed and added back.  The round goes on: it writes the flag of the old
member, then probes the second.
-/
def readded : Watch Unit :=
  rounds 3 (replaced [firstApiserver, secondApiserver]
    (replaced [secondApiserver] (rounds 3 bothMembers)))

/-- After two picks the next round has written the flag of the first one. -/
def probedAgain : Watch Unit :=
  rounds 6 (picked (picked readded))

section

variable {start config : Watch Unit}

theorem reaches_rounds (steps : Nat)
    (reached : Threads.Reaches (watchers Unit) Threads.anySchedule start config) :
    Threads.Reaches (watchers Unit) Threads.anySchedule start (rounds steps config) :=
  Threads.Reaches.playSchedule answering _ reached

theorem reaches_replaced (addrs : List SocketAddr)
    (reached : Threads.Reaches (watchers Unit) Threads.anySchedule start config) :
    Threads.Reaches (watchers Unit) Threads.anySchedule start (replaced addrs config) :=
  reached.step trivial (.drift (.inl ⟨addrs, rfl⟩))

theorem reaches_picked
    (reached : Threads.Reaches (watchers Unit) Threads.anySchedule start config) :
    Threads.Reaches (watchers Unit) Threads.anySchedule start (picked config) :=
  reached.step trivial (.drift (.inr rfl))

end

theorem reaches_readded :
    Threads.Reaches (watchers Unit) Threads.anySchedule bothMembers readded := by
  refine reaches_rounds 3 (reaches_replaced _ (reaches_replaced _ (reaches_rounds 3 ?_)))
  exact .start

-- The write through the old member does not reach the new one, which is picked only after its own.
theorem verified_of_reaches_readded :
    ((picked readded).world.log.head? = some (.picked (some secondApiserver)) ∧
      Verified (picked readded).world) ∧
    ((picked probedAgain).world.log.head? = some (.picked (some firstApiserver)) ∧
      Verified (picked probedAgain).world) := by
  have once := reaches_picked reaches_readded
  have twice := reaches_picked (reaches_rounds 6 (reaches_picked once))
  exact ⟨⟨by decide, verified_of_reaches once⟩, ⟨by decide, verified_of_reaches twice⟩⟩

end StormLb.Health
