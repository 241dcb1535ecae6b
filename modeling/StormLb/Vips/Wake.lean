import StormLb.Effects.Both
import StormLb.Effects.Threads
import StormLb.Health.Loop
import StormLb.Vips.PutSteps

/-!
# A wake-up is not lost

`put` replaces the members and the spec before it leaves the permit, and the
health loop takes the permit before it reads them.  So a wait that finds no
permit follows a round that read what the last `put` wrote.
-/

namespace StormLb.Vips

open StormLb.Net StormLb.Config StormLb.Health StormLb.Effects

/-! ## How far a `put` has come -/

inductive Stage where
  /-- Not holding the lock. -/
  | out
  | entered
  | wroteMembers
  | wroteState
  | told
  | replaced
  deriving DecidableEq, Repr

/-- The spec last put, and how far that `put` has come. -/
structure Headway where
  spec : Option VipSpec
  stage : Stage

def headway : PutLog → Headway
  | [] => ⟨none, .out⟩
  | ⟨op, answer⟩ :: past =>
      match op, answer with
      | .request, spec => ⟨some spec, .out⟩
      | .lock, _ => { headway past with stage := .entered }
      | .setAddrs _, _ => { headway past with stage := .wroteMembers }
      | .setState .., _ => { headway past with stage := .wroteState }
      | .notifyOne, _ => { headway past with stage := .told }
      | .setSpec _, _ => { headway past with stage := .replaced }
      | .unlock, _ => { headway past with stage := .out }
      | _, _ => headway past

/-- The order of the steps of a `put`, and what it writes. -/
def PutOp.Ordered (op : PutOp) (past : PutLog) : Prop :=
  match op with
  | .request => (headway past).stage = .out
  | .lock => (headway past).stage = .out
  | .conflict _ | .client _ => True
  | .moveListener _ => (headway past).stage = .entered
  | .setAddrs addrs => (headway past).stage = .entered ∧
      ∃ spec c, (headway past).spec = some spec ∧ check spec = .ok c ∧ addrs = c.backends
  | .setState health _ => (headway past).stage = .wroteMembers ∧
      ∃ spec, (headway past).spec = some spec ∧ health = spec.health
  | .notifyOne => (headway past).stage = .wroteState
  | .changeVrrp .. => (headway past).stage = .told
  | .setSpec spec => (headway past).stage = .told ∧ (headway past).spec = some spec
  | .unlock => (headway past).stage = .entered ∨ (headway past).stage = .wroteMembers ∨
      (headway past).stage = .replaced

section

open Program (Keeps)

variable {log : PutLog} {spec : VipSpec} {c : Checked}

/-- Where the lock is left, with an error or done. -/
def MayUnlock (log : PutLog) : Prop :=
  PutOp.unlock.Ordered log

theorem keeps_putLocked (entered : headway log = ⟨some spec, .entered⟩)
    (checked : check spec = .ok c) :
    Keeps PutOp.Ordered (fun _ after => MayUnlock after) (putLocked spec c) log := by
  refine ⟨trivial, fun conflict => ?_⟩
  cases conflict with
  | some other => exact .inl (by simp [headway, entered])
  | none =>
      refine ⟨trivial, fun built => ?_⟩
      cases built with
      | error error => exact .inl (by simp [headway, entered])
      | ok made =>
          refine ⟨by simp [PutOp.Ordered, headway, entered], fun moved => ?_⟩
          cases moved with
          | error error => exact .inl (by simp [headway, entered])
          | ok id =>
              refine ⟨⟨by simp [headway, entered], spec, c, by simp [headway, entered],
                checked, rfl⟩, fun _ => ⟨trivial, fun again => ?_⟩⟩
              cases again with
              | error error => exact .inr (.inl (by simp [headway]))
              | ok client =>
                  refine ⟨⟨by simp [headway], spec, by simp [headway, entered], rfl⟩, fun _ => ?_⟩
                  refine ⟨by simp [PutOp.Ordered, headway], fun _ => ?_⟩
                  refine ⟨by simp [PutOp.Ordered, headway], fun _ => ?_⟩
                  refine ⟨⟨by simp [headway], by simp [headway, entered]⟩, fun _ => ?_⟩
                  exact .inr (.inr (by simp [headway]))

theorem keeps_putForever (out : (headway log).stage = .out) :
    Keeps PutOp.Ordered (LoopPost (fun _ after => (headway after).stage = .out) fun _ _ => True)
      putForever log := by
  refine ⟨out, fun spec => ?_⟩
  simp only [Program.done_bind, putSteps]
  cases checked : check spec with
  | error error => exact by simp [headway]
  | ok c =>
      refine ⟨by simp [PutOp.Ordered, headway], fun _ => ?_⟩
      simp only [Program.done_bind, Program.bind_eq]
      rw [Program.keeps_bind, Program.keeps_bind]
      refine (keeps_putLocked (by simp [headway]) checked).weaken fun result after may => ?_
      exact ⟨may, fun _ => by simp [headway]⟩

end

/-! ## What a round has read -/

/-- Whether the round has read the state, and the members. -/
def roundRead : Health.Log → Bool × Bool
  | [] => (false, false)
  | ⟨op, _⟩ :: past =>
      match op with
      | .state => (true, (roundRead past).2)
      | .backends => ((roundRead past).1, true)
      | .notified _ => (false, false)
      | .connect .. | .get .. | .setHealthy .. => roundRead past

/-- A round waits when it has read both. -/
def ReadsFirst (op : Health.Op) (past : Health.Log) : Prop :=
  match op with
  | .notified _ => roundRead past = (true, true)
  | _ => True

section

open Program (Keeps)

variable {log : Health.Log}

theorem keeps_check_reads (addr : SocketAddr) (spec : HealthSpec) (client : Option Client)
    (read : roundRead log = (true, true)) :
    Keeps ReadsFirst (fun _ after => roundRead after = (true, true)) (Health.check addr spec client)
      log := by
  unfold Health.check
  split
  · exact ⟨trivial, fun _ => read⟩
  · exact read
  · refine ⟨trivial, fun status => ?_⟩
    cases status with
    | none => exact read
    | some status => exact read

theorem keeps_probeAll_reads (spec : HealthSpec) (client : Option Client) (members : List Backend)
    (read : roundRead log = (true, true)) :
    Keeps ReadsFirst (fun _ after => roundRead after = (true, true)) (probeAll spec client members)
      log := by
  induction members generalizing log with
  | nil => exact read
  | cons be rest ih =>
      refine (keeps_check_reads be.addr spec client read).bind fun ok after read => ?_
      exact ⟨trivial, fun _ => ih read⟩

theorem keeps_round_reads :
    Keeps ReadsFirst (LoopPost (fun _ _ => True) fun _ _ => True) round log := by
  refine ⟨trivial, fun (spec, client) => ⟨trivial, fun members => ?_⟩⟩
  refine (keeps_probeAll_reads spec client members rfl).bind fun _ after read => ?_
  exact ⟨read, fun _ => trivial⟩

end

/-! ## The loop and the callers together -/

/-- What the loop and the callers perform. -/
abbrev WakeOp := Health.Op ⊕ PutOp

abbrev WakeAns : WakeOp → Type := Sum.elim Health.Op.Ans PutOp.Ans

abbrev WakeProg := Program WakeOp WakeAns (Unit ⊕ Empty)

abbrev WakeLog := History WakeOp WakeAns

/-- What the loop's round has read, and how many writes were made before. -/
structure Round where
  state : Option (Nat × HealthSpec × Option Client)
  members : Option (Nat × List Backend)

/-- A VIP's entry, who holds the lock, and what was written and read. -/
structure LiveEntry (κ : Type) where
  entry : Entry
  holder : Option κ
  /-- How many times members or spec were written. -/
  writes : Nat
  round : Round

namespace LiveEntry

variable {κ : Type} [DecidableEq κ]

/-- What the loop may be answered; a wait ends without a permit when the interval has passed. -/
def serveLoop (live : LiveEntry κ) (op : Health.Op) (answer : op.Ans) : Option (LiveEntry κ) :=
  match op, answer with
  | .state, state =>
      if state = (live.entry.checker.spec, live.entry.checker.client) then
        some { live with round := { live.round with state := some (live.writes, state) } }
      else none
  | .backends, members =>
      if members = live.entry.pool.backends then
        some { live with round := { live.round with members := some (live.writes, members) } }
      else none
  | .setHealthy be ok, _ =>
      some { live with entry := { live.entry with pool := live.entry.pool.setHealthy be.id ok } }
  | .notified _, _ =>
      some { live with
        entry := { live.entry with checker := { live.entry.checker with wake := false } }
        round := ⟨none, none⟩ }
  | .connect .., _ | .get .., _ => some live

/-- What a `put` may be answered; the lock is taken when it is free. -/
def servePut (i : κ) (live : LiveEntry κ) (op : PutOp) (answer : op.Ans) :
    Option (LiveEntry κ) :=
  let after := { live with entry := op.does live.entry answer }
  match op with
  | .lock => if live.holder = none then some { live with holder := some i } else none
  | .unlock => some { live with holder := none }
  | .setAddrs _ | .setState .. => some { after with writes := live.writes + 1 }
  | _ => some after

def serve (who : Option κ) (live : LiveEntry κ) (op : WakeOp) (answer : WakeAns op) :
    Option (LiveEntry κ) :=
  match who, op, answer with
  | _, .inl op, answer => live.serveLoop op answer
  | some i, .inr op, answer => live.servePut i op answer
  | none, .inr _, _ => none

end LiveEntry

/-- The VIP's health loop and the callers of `put`; connections pick members meanwhile. -/
def wakers (κ : Type) [DecidableEq κ] :
    Threads (Option κ) WakeOp WakeAns Unit Empty (LiveEntry κ) where
  first
    | none => round.left
    | some _ => putForever.right
  body
    | none, _ => round.left
    | some _, _ => putForever.right
  serves := LiveEntry.serve
  drifts live after :=
    after = { live with entry := { live.entry with pool := live.entry.pool.pick.2 } }

abbrev Scene (κ : Type) :=
  Config (Option κ) WakeOp WakeAns Unit Empty (LiveEntry κ)

theorem LiveEntry.servePut_round {κ : Type} {i : κ} {live after : LiveEntry κ} {op : PutOp}
    {answer : op.Ans} [DecidableEq κ] (served : live.servePut i op answer = some after) :
    after.round = live.round := by
  cases op with
  | lock =>
      dsimp only [LiveEntry.servePut] at served
      split at served
      · cases served
        rfl
      · cases served
  | _ =>
      cases served
      rfl

/-- What the loop's step makes of the world's round, it makes of the round of its history. -/
theorem roundRead_loop {κ : Type} {live after : LiveEntry κ} {log : Health.Log} {op : Health.Op}
    {answer : op.Ans}
    (read : (live.round.state.isSome, live.round.members.isSome) = roundRead log)
    (served : live.serveLoop op answer = some after) :
    (after.round.state.isSome, after.round.members.isSome) = roundRead (⟨op, answer⟩ :: log) := by
  cases op with
  | state =>
      dsimp only [LiveEntry.serveLoop] at served
      split at served
      · cases served
        rw [roundRead, ← read]
        rfl
      · cases served
  | backends =>
      dsimp only [LiveEntry.serveLoop] at served
      split at served
      · cases served
        rw [roundRead, ← read]
        rfl
      · cases served
  | notified secs =>
      cases served
      rfl
  | connect secs addr =>
      cases served
      exact read
  | get client url =>
      cases served
      exact read
  | setHealthy be ok =>
      cases served
      exact read

/-! ## The invariant -/

/-- The members and the checker's spec are those of the spec. -/
def Entry.Holds (e : Entry) (spec : VipSpec) : Prop :=
  ∃ c, check spec = .ok c ∧ e.pool.addrs = c.backends.eraseDups ∧ e.checker.spec = spec.health

theorem Entry.Holds.congr {e after : Entry} {spec : VipSpec} (holds : e.Holds spec)
    (addrs : after.pool.addrs = e.pool.addrs) (checker : after.checker.spec = e.checker.spec) :
    after.Holds spec := by
  rwa [Entry.Holds, addrs, checker]

theorem does_moveListener (e : Entry) (listen : SocketAddr) (answer : Except String Nat) :
    (PutOp.does e (.moveListener listen) answer).pool = e.pool ∧
      (PutOp.does e (.moveListener listen) answer).checker = e.checker ∧
      (PutOp.does e (.moveListener listen) answer).spec = e.spec := by
  cases answer with
  | error error => exact ⟨rfl, rfl, rfl⟩
  | ok id =>
      simp only [PutOp.does, Entry.moved]
      split
      · exact ⟨rfl, rfl, rfl⟩
      · exact ⟨rfl, rfl, rfl⟩

theorem does_changeVrrp (e : Entry) (spec : VipSpec) (vip : Option Ipv4Addr) (id : Nat) :
    (PutOp.does e (.changeVrrp spec vip) id).pool = e.pool ∧
      (PutOp.does e (.changeVrrp spec vip) id).checker = e.checker := by
  simp only [PutOp.does]
  split
  · exact ⟨rfl, rfl⟩
  · exact ⟨rfl, rfl⟩

/-- Something was written, and the loop not told yet. -/
def Stage.Untold (stage : Stage) : Prop :=
  stage = .wroteMembers ∨ stage = .wroteState

/-- What the entry holds while the `put` that has the lock has come so far. -/
def Headway.Agrees (s : Headway) (e : Entry) : Prop :=
  match s.stage with
  | .out | .entered | .replaced => e.Holds e.spec
  | .wroteMembers => ∃ spec c, s.spec = some spec ∧ check spec = .ok c ∧
      e.pool.addrs = c.backends.eraseDups
  | .wroteState | .told => ∃ spec, s.spec = some spec ∧ e.Holds spec

theorem Headway.Agrees.congr {s : Headway} {e after : Entry} (agrees : s.Agrees e)
    (spec : after.spec = e.spec) (addrs : after.pool.addrs = e.pool.addrs)
    (checker : after.checker.spec = e.checker.spec) : s.Agrees after := by
  have served (holds : e.Holds e.spec) : after.Holds after.spec := by
    rw [spec]
    exact holds.congr addrs checker
  obtain ⟨asked, stage⟩ := s
  cases stage with
  | out => exact served agrees
  | entered => exact served agrees
  | replaced => exact served agrees
  | wroteMembers => rwa [Headway.Agrees, addrs]
  | wroteState =>
      obtain ⟨spec, asks, holds⟩ := agrees
      exact ⟨spec, asks, holds.congr addrs checker⟩
  | told =>
      obtain ⟨spec, asks, holds⟩ := agrees
      exact ⟨spec, asks, holds.congr addrs checker⟩

/-- Whatever the round has read was read since the last write. -/
structure LiveEntry.RoundCurrent {κ : Type} (live : LiveEntry κ) : Prop where
  state : ∀ read, live.round.state = some read →
    read = (live.writes, live.entry.checker.spec, live.entry.checker.client)
  members : ∀ read, live.round.members = some read →
    read.1 = live.writes ∧ read.2.map Backend.addr = live.entry.pool.addrs

/-- A permit is there, or one is about to be, or the round need not be woken. -/
structure Sound {κ : Type} (headways : κ → Headway) (live : LiveEntry κ) : Prop where
  held : ∀ i, live.holder = some i ↔ (headways i).stage ≠ .out
  free : live.holder = none → live.entry.Holds live.entry.spec
  agrees : ∀ i, live.holder = some i → (headways i).Agrees live.entry
  fresh : live.entry.checker.wake = true ∨ (∃ i, (headways i).stage.Untold) ∨ live.RoundCurrent

section

variable {κ : Type} {headways : κ → Headway} {live after : LiveEntry κ} {i : κ}

theorem Sound.out_of_free (sound : Sound headways live) (free : live.holder = none) (i : κ) :
    (headways i).stage = .out := by
  by_contra inside
  cases free.symm.trans ((sound.held i).mpr inside)

/-- Only the holder is inside. -/
theorem Sound.out_of_ne (sound : Sound headways live) (inside : (headways i).stage ≠ .out)
    {j : κ} (apart : j ≠ i) : (headways j).stage = .out := by
  by_contra other
  have same := ((sound.held j).mpr other).symm.trans ((sound.held i).mpr inside)
  exact apart (Option.some.inj same)

theorem Stage.not_untold_out : ¬ Stage.out.Untold := by
  rintro (same | same) <;> cases same

/-- While nothing is untold, a permit is there or the round is current. -/
theorem Sound.fresh_of_told (sound : Sound headways live)
    (told : ∀ i, ¬ (headways i).stage.Untold) :
    live.entry.checker.wake = true ∨ live.RoundCurrent := by
  rcases sound.fresh with permit | ⟨i, untold⟩ | current
  · exact .inl permit
  · exact absurd untold (told i)
  · exact .inr current

/-- The `put` that has the lock goes on, and keeps the lock. -/
theorem Sound.goesOn [DecidableEq κ] {s : Headway} (sound : Sound headways live)
    (inside : (headways i).stage ≠ .out) (still : s.stage ≠ .out)
    (holder : after.holder = live.holder) (agrees : s.Agrees after.entry)
    (fresh : after.entry.checker.wake = true ∨ s.stage.Untold ∨ after.RoundCurrent) :
    Sound (Function.update headways i s) after where
  held j := by
    rw [holder]
    by_cases own : j = i
    · subst own
      rw [Function.update_self]
      exact ⟨fun _ => still, fun _ => (sound.held j).mpr inside⟩
    · rw [Function.update_of_ne own]
      exact sound.held j
  free none := by
    rw [holder, (sound.held i).mpr inside] at none
    cases none
  agrees j here := by
    rw [holder, (sound.held i).mpr inside] at here
    obtain rfl := Option.some.inj here
    rwa [Function.update_self]
  fresh := by
    rcases fresh with permit | untold | current
    · exact .inl permit
    · exact .inr (.inl ⟨i, by rwa [Function.update_self]⟩)
    · exact .inr (.inr current)

/-- A step that leaves members and checker alone leaves the round as current as it was. -/
theorem LiveEntry.RoundCurrent.congr {e : Entry} (current : live.RoundCurrent)
    (pool : e.pool.addrs = live.entry.pool.addrs) (checker : e.checker = live.entry.checker) :
    LiveEntry.RoundCurrent { live with entry := e } where
  state read is := by
    rw [current.state read is, checker]
  members read is := by
    rw [pool]
    exact current.members read is

theorem LiveEntry.RoundCurrent.setHolder (current : live.RoundCurrent) (holder : Option κ) :
    LiveEntry.RoundCurrent { live with holder } where
  state := current.state
  members := current.members

/-- So does a step of the `put` that has the lock, when it has nothing untold. -/
theorem Sound.goesOn_quietly [DecidableEq κ] {s : Headway} {e : Entry}
    (sound : Sound headways live) (inside : (headways i).stage ≠ .out)
    (told : ¬ (headways i).stage.Untold) (still : s.stage ≠ .out) (pool : e.pool = live.entry.pool)
    (checker : e.checker = live.entry.checker) (agrees : s.Agrees e) :
    Sound (Function.update headways i s) { live with entry := e } := by
  refine sound.goesOn inside still rfl agrees ?_
  have all (j : κ) : ¬ (headways j).stage.Untold := by
    by_cases own : j = i
    · rwa [own]
    · rw [sound.out_of_ne inside own]
      exact Stage.not_untold_out
  rcases sound.fresh_of_told all with permit | current
  · exact .inl (by rwa [checker])
  · exact .inr (.inr (current.congr (by rw [pool]) checker))

/-- The stage does not matter where nobody holds the lock. -/
theorem Sound.idles [DecidableEq κ] {s : Headway} (sound : Sound headways live)
    (out : (headways i).stage = .out) (still : s.stage = .out) :
    Sound (Function.update headways i s) live where
  held j := by
    by_cases own : j = i
    · subst own
      rw [Function.update_self, sound.held, out, still]
    · rw [Function.update_of_ne own]
      exact sound.held j
  free := sound.free
  agrees j here := by
    have apart : j ≠ i := by
      rintro rfl
      exact (sound.held j).mp here out
    rw [Function.update_of_ne apart]
    exact sound.agrees j here
  fresh := by
    rcases sound.fresh with permit | ⟨j, untold⟩ | current
    · exact .inl permit
    · have apart : j ≠ i := by
        rintro rfl
        rw [out] at untold
        exact Stage.not_untold_out untold
      exact .inr (.inl ⟨j, by rwa [Function.update_of_ne apart]⟩)
    · exact .inr (.inr current)

theorem Sound.locks [DecidableEq κ] {s : Headway} (sound : Sound headways live)
    (free : live.holder = none) (entered : s.stage = .entered) :
    Sound (Function.update headways i s) { live with holder := some i } where
  held j := by
    by_cases own : j = i
    · subst own
      rw [Function.update_self, entered]
      exact ⟨fun _ => by decide, fun _ => rfl⟩
    · rw [Function.update_of_ne own, sound.out_of_free free j]
      exact ⟨fun same => absurd (Option.some.inj same).symm own, fun inside => absurd rfl inside⟩
  free none := by cases none
  agrees j here := by
    obtain rfl := Option.some.inj here
    rw [Function.update_self, Headway.Agrees, entered]
    exact sound.free free
  fresh := by
    have told (j : κ) : ¬ (headways j).stage.Untold := by
      rw [sound.out_of_free free j]
      exact Stage.not_untold_out
    exact (sound.fresh_of_told told).imp_right fun current => .inr (current.setHolder _)

theorem Sound.unlocks [DecidableEq κ] {s : Headway} (sound : Sound headways live)
    (inside : (headways i).stage = .entered ∨ (headways i).stage = .replaced)
    (out : s.stage = .out) :
    Sound (Function.update headways i s) { live with holder := none } := by
  have held : (headways i).stage ≠ .out := by
    rcases inside with entered | replaced
    · rw [entered]
      decide
    · rw [replaced]
      decide
  have outs (j : κ) : (Function.update headways i s j).stage = .out := by
    by_cases own : j = i
    · rw [own, Function.update_self, out]
    · rw [Function.update_of_ne own]
      exact sound.out_of_ne held own
  have agrees := sound.agrees i ((sound.held i).mpr held)
  have told (j : κ) : ¬ (headways j).stage.Untold := by
    by_cases own : j = i
    · rw [own]
      rcases inside with entered | replaced
      · simp [Stage.Untold, entered]
      · simp [Stage.Untold, replaced]
    · rw [sound.out_of_ne held own]
      exact Stage.not_untold_out
  exact
    { held := fun j => by simp [outs j]
      free := fun _ => by
        rcases inside with entered | replaced
        · rwa [Headway.Agrees, entered] at agrees
        · rwa [Headway.Agrees, replaced] at agrees
      agrees := fun j here => by simp at here
      fresh := (sound.fresh_of_told told).imp_right fun current => .inr (current.setHolder _) }

/-- One step of a `put` that does not fail halfway. -/
theorem Sound.put [DecidableEq κ] {past : PutLog} {op : PutOp} {answer : op.Ans}
    (sound : Sound headways live) (own : headways i = headway past) (ordered : op.Ordered past)
    (whole : op = .unlock → (headway past).stage ≠ .wroteMembers)
    (served : live.servePut i op answer = some after) :
    Sound (Function.update headways i (headway (⟨op, answer⟩ :: past))) after := by
  have inside {stage : Stage} (here : (headway past).stage = stage) (apart : stage ≠ .out) :
      (headways i).stage ≠ .out := by
    rwa [own, here]
  have agrees {stage : Stage} (here : (headway past).stage = stage) (apart : stage ≠ .out) :
      (headway past).Agrees live.entry := by
    rw [← own]
    exact sound.agrees i ((sound.held i).mpr (inside here apart))
  have told {stage : Stage} (here : (headway past).stage = stage) (apart : ¬ stage.Untold) :
      ¬ (headways i).stage.Untold := by
    rwa [own, here]
  cases op with
  | request =>
      cases served
      exact sound.idles (by rw [own, ordered]) rfl
  | lock =>
      dsimp only [LiveEntry.servePut] at served
      split at served
      · rename_i free
        cases served
        exact sound.locks free rfl
      · cases served
  | conflict listen =>
      cases served
      rwa [show headway (⟨.conflict listen, answer⟩ :: past) = headways i from own.symm,
        Function.update_eq_self]
  | client spec =>
      cases served
      rwa [show headway (⟨.client spec, answer⟩ :: past) = headways i from own.symm,
        Function.update_eq_self]
  | moveListener listen =>
      cases served
      have entered : (headway past).stage = .entered := ordered
      have before := agrees entered (by decide)
      obtain ⟨pool, checker, spec⟩ := does_moveListener live.entry listen answer
      have same : (headway (⟨.moveListener listen, answer⟩ :: past)).stage = .entered := entered
      refine sound.goesOn_quietly (inside entered (by decide))
        (told entered (by simp [Stage.Untold])) (by simp [same]) pool checker ?_
      rw [Headway.Agrees, entered] at before
      rw [Headway.Agrees, same, spec]
      exact before.congr (by rw [pool]) (by rw [checker])
  | setAddrs addrs =>
      cases served
      obtain ⟨entered, spec, c, asked, checked, rfl⟩ := ordered
      refine sound.goesOn (inside entered (by decide)) (by simp [headway]) rfl ?_
        (.inr (.inl (.inl rfl)))
      exact ⟨spec, c, asked, checked, Pool.setAddrs_addrs _ _⟩
  | setState health made =>
      cases served
      obtain ⟨members, spec, asked, rfl⟩ := ordered
      have before := agrees members (by decide)
      rw [Headway.Agrees, members] at before
      obtain ⟨spec', c, asked', checked, addrs⟩ := before
      cases asked.symm.trans asked'
      refine sound.goesOn (inside members (by decide)) (by simp [headway]) rfl ?_
        (.inr (.inl (.inr rfl)))
      exact ⟨spec, asked, c, checked, addrs, rfl⟩
  | notifyOne =>
      cases served
      have state : (headway past).stage = .wroteState := ordered
      have before := agrees state (by decide)
      rw [Headway.Agrees, state] at before
      exact sound.goesOn (inside state (by decide)) (by simp [headway]) rfl before (.inl rfl)
  | changeVrrp spec vip =>
      cases served
      have tolds : (headway past).stage = .told := ordered
      have before := agrees tolds (by decide)
      obtain ⟨pool, checker⟩ := does_changeVrrp live.entry spec vip answer
      have same : (headway (⟨.changeVrrp spec vip, answer⟩ :: past)).stage = .told := tolds
      refine sound.goesOn_quietly (inside tolds (by decide)) (told tolds (by simp [Stage.Untold]))
        (by simp [same]) pool checker ?_
      rw [Headway.Agrees, tolds] at before
      rw [Headway.Agrees, same]
      obtain ⟨spec, asked, holds⟩ := before
      exact ⟨spec, asked, holds.congr (by rw [pool]) (by rw [checker])⟩
  | setSpec spec =>
      cases served
      obtain ⟨tolds, asked⟩ := ordered
      have before := agrees tolds (by decide)
      rw [Headway.Agrees, tolds] at before
      obtain ⟨spec', asked', holds⟩ := before
      cases asked.symm.trans asked'
      exact sound.goesOn_quietly (inside tolds (by decide)) (told tolds (by simp [Stage.Untold]))
        (by simp [headway]) rfl rfl holds
  | unlock =>
      cases served
      refine sound.unlocks ?_ rfl
      rw [own]
      rcases ordered with entered | members | replaced
      · exact .inl entered
      · exact absurd members (whole rfl)
      · exact .inr replaced

/-- The loop and the connections leave whose members and spec they are. -/
theorem Sound.carried (sound : Sound headways live) (holder : after.holder = live.holder)
    (spec : after.entry.spec = live.entry.spec)
    (addrs : after.entry.pool.addrs = live.entry.pool.addrs)
    (checker : after.entry.checker.spec = live.entry.checker.spec)
    (fresh : after.entry.checker.wake = true ∨ (∃ i, (headways i).stage.Untold) ∨
      after.RoundCurrent) : Sound headways after where
  held i := by rw [holder, sound.held]
  free none := by
    rw [spec]
    exact (sound.free (holder.symm.trans none)).congr addrs checker
  agrees i here := (sound.agrees i (holder.symm.trans here)).congr spec addrs checker
  fresh := fresh

/-- One step of the loop. -/
theorem Sound.loop {op : Health.Op} {answer : op.Ans} (sound : Sound headways live)
    (served : live.serveLoop op answer = some after) : Sound headways after := by
  have fresh := sound.fresh
  cases op with
  | state =>
      dsimp only [LiveEntry.serveLoop] at served
      split at served
      · rename_i same
        cases served
        refine sound.carried rfl rfl rfl rfl (fresh.imp_right (Or.imp_right fun current => ?_))
        exact ⟨fun read is => by rw [← Option.some.inj is, same], current.members⟩
      · cases served
  | backends =>
      dsimp only [LiveEntry.serveLoop] at served
      split at served
      · rename_i same
        cases served
        refine sound.carried rfl rfl rfl rfl (fresh.imp_right (Or.imp_right fun current => ?_))
        refine ⟨current.state, fun read is => ?_⟩
        rw [← Option.some.inj is, same]
        exact ⟨rfl, rfl⟩
      · cases served
  | setHealthy be ok =>
      cases served
      have addrs := Pool.setHealthy_addrs live.entry.pool be.id ok
      refine sound.carried rfl rfl addrs rfl (fresh.imp_right (Or.imp_right fun current => ?_))
      exact current.congr addrs rfl
  | notified secs =>
      cases served
      -- A round that has read nothing yet is current.
      refine sound.carried rfl rfl rfl rfl (.inr (.inr ⟨?_, ?_⟩))
      · rintro read ⟨⟩
      · rintro read ⟨⟩
  | connect secs addr =>
      cases served
      exact sound
  | get client url =>
      cases served
      exact sound

/-- A connection picks a member. -/
theorem Sound.pick (sound : Sound headways live) :
    Sound headways
      { live with entry := { live.entry with pool := live.entry.pool.pick.2 } } := by
  have addrs := Pool.pick_addrs live.entry.pool
  refine sound.carried rfl rfl addrs rfl (sound.fresh.imp_right (Or.imp_right fun current => ?_))
  exact current.congr addrs rfl

end

/-! ## Every run -/

section

variable {κ : Type} [DecidableEq κ]

/-- Nothing was put since the VIP was made. -/
def LiveEntry.new (e : Entry) : LiveEntry κ where
  entry := e
  holder := none
  writes := 0
  round := ⟨none, none⟩

def unlocksNext : WakeProg → Bool
  | .call (.inr .unlock) _ => true
  | _ => false

/-- No `put` fails once it has replaced the members. -/
def EndsWhole (who : Option (Option κ)) (config : Scene κ) : Prop :=
  ∀ i ∈ who, unlocksNext (config.threads i) = true →
    (headway (History.rights (config.histories i))).stage ≠ .wroteMembers

instance (who : Option (Option κ)) (config : Scene κ) : Decidable (EndsWhole who config) :=
  inferInstanceAs (Decidable (∀ i ∈ who, _ → _))

/-- The round has read the spec last put and its members, each since the last write. -/
def LiveEntry.RoundRead (live : LiveEntry κ) : Prop :=
  ∃ c client members, check live.entry.spec = .ok c ∧
    live.round.state = some (live.writes, live.entry.spec.health, client) ∧
    live.round.members = some (live.writes, members) ∧
    members.map Backend.addr = c.backends.eraseDups

/-- The invariant, and that the world's round is the loop's. -/
structure Awake (config : Scene κ) : Prop where
  sound : Sound (fun i => headway (History.rights (config.histories (some i)))) config.world
  read : (config.world.round.state.isSome, config.world.round.members.isSome) =
    roundRead (History.lefts (config.histories none))

variable {e : Entry} {spec : VipSpec} {fromConfig : Bool} {c : Checked} {config : Scene κ}
  {allowed : Option (Option κ) → Scene κ → Prop}

/-- In every interleaving the loop waits when it has read both. -/
theorem keeps_loop_reads
    (reached : Threads.Reaches (wakers κ) allowed ((wakers κ).initial (LiveEntry.new e)) config) :
    Program.Keeps (Program.OnLeft ReadsFirst) (LoopPost (fun _ _ => True) fun _ _ => True)
      (config.threads none) (config.histories none) := by
  have round (history : WakeLog) :
      Program.Keeps (Program.OnLeft ReadsFirst) (LoopPost (fun _ _ => True) fun _ _ => True)
        Health.round.left history := by
    refine (Program.Keeps.left keeps_round_reads).weaken fun value _ _ => ?_
    cases value with
    | inl _ => trivial
    | inr impossible => cases impossible
  exact (reached.solo none).keeps (round []) fun _ history _ => round history

/-- In every interleaving each caller's steps are in order. -/
theorem keeps_caller_order
    (reached : Threads.Reaches (wakers κ) allowed ((wakers κ).initial (LiveEntry.new e)) config)
    (i : κ) :
    Program.Keeps (Program.OnRight PutOp.Ordered)
      (LoopPost (fun _ after => (headway (History.rights after)).stage = .out) fun _ _ => True)
      (config.threads (some i)) (config.histories (some i)) := by
  have forever (history : WakeLog)
      (out : (headway (History.rights history)).stage = .out) :
      Program.Keeps (Program.OnRight PutOp.Ordered)
        (LoopPost (fun _ after => (headway (History.rights after)).stage = .out) fun _ _ => True)
        putForever.right history := by
    refine (Program.Keeps.right (keeps_putForever out)).weaken fun value _ left => ?_
    cases value with
    | inl _ => exact left
    | inr impossible => cases impossible
  exact (reached.solo (some i)).keeps (forever [] rfl) fun _ history out => forever history out

theorem awake_initial (holds : e.Holds e.spec) :
    Awake ((wakers κ).initial (LiveEntry.new e)) where
  sound :=
    { held := fun i => by simp [Threads.initial, LiveEntry.new, History.rights, headway]
      free := fun _ => holds
      agrees := fun i here => by simp [Threads.initial, LiveEntry.new] at here
      fresh := by
        refine .inr (.inr ⟨?_, ?_⟩)
        · simp [Threads.initial, LiveEntry.new]
        · simp [Threads.initial, LiveEntry.new] }
  read := rfl

/-- A step of the loop. -/
theorem Awake.loop {op : Health.Op} {answer : op.Ans} {world : LiveEntry κ}
    {rest : WakeProg}
    (awake : Awake config) (served : config.world.serveLoop op answer = some world) :
    Awake (config.advance none rest ⟨.inl op, answer⟩ world) where
  sound := by
    simp only [Config.advance_histories_of_ne _ (Option.some_ne_none _)]
    exact awake.sound.loop served
  read := by
    rw [Config.advance_histories_self]
    exact roundRead_loop awake.read served

/-- A step of a caller that does not fail halfway. -/
theorem Awake.put {i : κ} {op : PutOp} {answer : op.Ans} {world : LiveEntry κ}
    {rest : WakeProg}
    (awake : Awake config) (ordered : op.Ordered (History.rights (config.histories (some i))))
    (whole : op = .unlock →
      (headway (History.rights (config.histories (some i)))).stage ≠ .wroteMembers)
    (served : config.world.servePut i op answer = some world) :
    Awake (config.advance (some i) rest ⟨.inr op, answer⟩ world) where
  sound := by
    have headways : (fun j => headway (History.rights
        ((config.advance (some i) rest ⟨.inr op, answer⟩ world).histories (some j)))) =
        Function.update (fun j => headway (History.rights (config.histories (some j)))) i
          (headway (⟨op, answer⟩ :: History.rights (config.histories (some i)))) := by
      funext j
      by_cases own : j = i
      · subst own
        rw [Config.advance_histories_self, Function.update_self]
        rfl
      · rw [Config.advance_histories_of_ne _ fun same => own (Option.some.inj same),
          Function.update_of_ne own]
    rw [headways]
    exact awake.sound.put rfl ordered whole served
  read := by
    rw [Config.advance_histories_of_ne _ (Option.some_ne_none i).symm, ← awake.read]
    change ((world.round.state.isSome, world.round.members.isSome) : Bool × Bool) = _
    rw [LiveEntry.servePut_round served]

theorem awake_of_reaches (holds : e.Holds e.spec)
    (reached : Threads.Reaches (wakers κ) EndsWhole ((wakers κ).initial (LiveEntry.new e)) config) :
    Awake config := by
  induction reached with
  | start => exact awake_initial holds
  | @step config after who before admitted stepped awake =>
      cases stepped with
      | turn looped => exact ⟨awake.sound, awake.read⟩
      | drift moved =>
          cases moved
          exact ⟨awake.sound.pick, awake.read⟩
      | @call _ i op next world answer waiting served =>
          cases i with
          | none =>
              have keeps := keeps_loop_reads before
              rw [waiting] at keeps
              cases op with
              | inl op => exact awake.loop served
              | inr op => exact keeps.1.elim
          | some i =>
              have keeps := keeps_caller_order before i
              rw [waiting] at keeps
              cases op with
              | inl op => exact keeps.1.elim
              | inr op =>
                  refine awake.put keeps.1 ?_ served
                  rintro rfl
                  exact admitted (some i) rfl (by rw [waiting]; rfl)

/--
In every interleaving with `put`s that do not fail halfway: where the loop waits
without a permit and no `put` is going on, its round has read the spec last put
and that spec's members, after they were written.
-/
theorem roundRead_of_waits (checked : check spec = .ok c) (made : e.MadeFrom spec fromConfig c)
    (reached : Threads.Reaches (wakers κ) EndsWhole ((wakers κ).initial (LiveEntry.new e)) config)
    {secs : UInt64}
    {next : Unit → WakeProg}
    (waits : config.threads none = .call (.inl (.notified secs)) next)
    (noPermit : config.world.entry.checker.wake = false) (returned : config.world.holder = none) :
    config.world.RoundRead := by
  have holds : e.Holds e.spec := by
    refine ⟨c, by rw [made.setsSpec, checked], ?_, by rw [made.setsChecker, made.setsSpec]⟩
    rw [made.setsMembers, Pool.new_addrs]
  have awake := awake_of_reaches holds reached
  have keeps := keeps_loop_reads reached
  rw [waits] at keeps
  have read : (config.world.round.state.isSome, config.world.round.members.isSome) = (true, true) :=
    awake.read.trans keeps.1
  obtain ⟨hasState, hasMembers⟩ := Prod.mk.inj read
  obtain ⟨state, isState⟩ := Option.isSome_iff_exists.mp hasState
  obtain ⟨⟨time, members⟩, isMembers⟩ := Option.isSome_iff_exists.mp hasMembers
  have current : config.world.RoundCurrent := by
    refine (awake.sound.fresh_of_told fun i => ?_).resolve_left (by simp [noPermit])
    rw [awake.sound.out_of_free returned i]
    exact Stage.not_untold_out
  obtain ⟨c, checked, addrs, health⟩ := awake.sound.free returned
  obtain ⟨rfl, same⟩ := current.members _ isMembers
  refine ⟨c, config.world.entry.checker.client, members, checked, ?_, isMembers, same.trans addrs⟩
  rw [isState, current.state state isState, health]

end

/-! ## A change during a round -/

/-- A VIP without members, and then with one. -/
def bareVip : VipSpec where
  address := "192.168.8.50"
  port := 6443

def memberVip : VipSpec :=
  { bareVip with backends := [⟨"192.168.8.98", 6443⟩] }

def bareChecked : Checked where
  listen := ⟨.v4 ⟨192, 168, 8, 50⟩, 6443⟩
  backends := []
  vrrpVip := none

def bareEntry : Entry where
  spec := bareVip
  fromConfig := false
  listen := bareChecked.listen
  pool := Pool.new []
  checker := ⟨bareVip.health, none, false⟩
  health := 0
  serve := ⟨1, bareChecked.listen⟩
  vrrp := none

/-- The loop reads what is there, what it probes answers, and `memberVip` is put. -/
def memberAnswers (_ : Option Unit) (live : LiveEntry Unit) (op : WakeOp) : WakeAns op :=
  match op with
  | .inl .state => (live.entry.checker.spec, live.entry.checker.client)
  | .inl .backends => live.entry.pool.backends
  | .inl (.connect ..) => true
  | .inl (.get ..) => some 200
  | .inl (.setHealthy ..) => ()
  | .inl (.notified _) => ()
  | .inr .request => memberVip
  | .inr (.conflict _) => none
  | .inr (.client _) => .ok none
  | .inr (.moveListener _) => .ok 2
  | .inr (.changeVrrp ..) => (3 : Nat)
  | .inr .lock | .inr (.setAddrs _) | .inr (.setState ..) | .inr .notifyOne | .inr (.setSpec _)
  | .inr .unlock => ()

/-- The loop has found no member; the `put` comes; the loop goes round again, and waits. -/
def wokenOnce : Scene Unit :=
  (wakers Unit).playSchedule EndsWhole memberAnswers
    ((wakers Unit).initial (LiveEntry.new bareEntry))
    (List.replicate 2 none ++ List.replicate 12 (some ()) ++ List.replicate 6 none)

def waitsNext : WakeProg → Bool
  | .call (.inl (.notified _)) _ => true
  | _ => false

theorem exists_of_waitsNext
    {program : WakeProg}
    (waits : waitsNext program = true) :
    ∃ secs next, program = .call (.inl (.notified secs)) next := by
  unfold waitsNext at waits
  split at waits
  · exact ⟨_, _, rfl⟩
  · cases waits

theorem roundRead_wokenOnce :
    wokenOnce.world.writes = 2 ∧ wokenOnce.world.RoundRead := by
  have reached : Threads.Reaches (wakers Unit) EndsWhole
      ((wakers Unit).initial (LiveEntry.new bareEntry)) wokenOnce :=
    Threads.Reaches.playSchedule memberAnswers _ .start
  have made : bareEntry.MadeFrom bareVip false bareChecked :=
    ⟨rfl, rfl, rfl, rfl, rfl, ⟨0, rfl⟩⟩
  have waits : waitsNext (wokenOnce.threads none) = true := by decide +kernel
  obtain ⟨secs, next, waits⟩ := exists_of_waitsNext waits
  refine ⟨by decide +kernel, ?_⟩
  exact roundRead_of_waits (by decide +kernel) made reached waits (by decide +kernel)
    (by decide +kernel)

end StormLb.Vips
