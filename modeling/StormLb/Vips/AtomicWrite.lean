import StormLb.Effects.Disk
import StormLb.Text.Str
import StormLb.Vips.SaveOrder

/-!
# Concurrent saves, piece by piece

`save` with its file operations one by one: the temporary file is truncated, is
written in pieces, and is renamed onto the state file.  Every save uses the same
temporary file, so the state file stays whole as long as none truncates it while
another has it open, and not otherwise.
-/

namespace StormLb.Vips

open StormLb.Effects StormLb.Text

/-! ## A save -/

/-- How one `write` of a file ended. -/
inductive Piece where
  | wrote (size : Nat)
  | interrupted
  | failed (error : String)
  deriving DecidableEq, Repr

inductive Rename where
  | renamed
  | notFound
  | failed (error : String)
  deriving DecidableEq, Repr

inductive SaveOp where
  | pendingSnapshot
  | vipsSnapshot
  /-- Create the directory the path is in. -/
  | createParent (path : String)
  /-- Open for writing, truncated; an open file is shown as its number. -/
  | create (path : String)
  /-- Write at the offset that the open file is at. -/
  | write (file offset : Nat) (bytes : List UInt8)
  | rename (source target : String)

abbrev SaveOp.Ans : SaveOp → Type
  | .pendingSnapshot => State
  | .vipsSnapshot => Std.ExtTreeMap String Entry
  | .createParent _ => Except String Unit
  | .create _ => Except String Nat
  | .write .. => Piece
  | .rename .. => Rename

abbrev SaveProg := Program SaveOp SaveOp.Ans

abbrev SaveLog := History SaveOp SaveOp.Ans

/-- The temporary file, open, with what is still to be written. -/
structure Writing where
  path : String
  file : Nat
  offset : Nat
  rest : List UInt8

abbrev Saved := Except ApplyError Unit

def perform (op : SaveOp) : SaveProg op.Ans :=
  .call op .done

@[simp] theorem perform_eq (op : SaveOp) : perform op = .call op .done :=
  rfl

/-- The bytes of a saved state. -/
def Serde.bytes (serde : Serde) (state : State) : List UInt8 :=
  bytesOf (serde.toStringPretty state)

/-- `write_atomic`, up to the first piece. -/
def startWrite (path : String) (text : List UInt8) : SaveProg (Writing ⊕ Saved) := do
  match ← perform (.createParent path) with
  | .error error => return .inr (.error (.notSaved path error))
  | .ok () =>
      let tmp := withExtension path "tmp"
      match ← perform (.create tmp) with
      | .error error => return .inr (.error (.notSaved path s!"writing {tmp}: {error}"))
      | .ok file => return .inl { path, file, offset := 0, rest := text }

/-- `Registry::save`, up to the first piece. -/
def startSave (serde : Serde) : Option String → SaveProg (Writing ⊕ Saved)
  | none => return .inr (.ok ())
  | some path => do
      let pending ← perform .pendingSnapshot
      let vips ← perform .vipsSnapshot
      startWrite path (serde.bytes (savedOver pending vips))

/-- The next piece, as in `write_all`, or the rename after the last one. -/
def turnWrite (w : Writing) : SaveProg (Writing ⊕ Saved) :=
  let tmp := withExtension w.path "tmp"
  match w.rest with
  | [] => do
      let failed (error : String) : Saved :=
        .error (.notSaved w.path s!"renaming {tmp} into place: {error}")
      match ← perform (.rename tmp w.path) with
      | .renamed => return .inr (.ok ())
      | .notFound => return .inr (failed "No such file or directory (os error 2)")
      | .failed error => return .inr (failed error)
  | bytes => do
      let failed (error : String) : Saved := .error (.notSaved w.path s!"writing {tmp}: {error}")
      match ← perform (.write w.file w.offset bytes) with
      | .failed error => return .inr (failed error)
      | .interrupted => return .inl w
      | .wrote 0 => return .inr (failed "failed to write whole buffer")
      | .wrote size => return .inl { w with offset := w.offset + size, rest := bytes.drop size }

/-! ## Concurrent saves -/

/-- The registry and the disk. -/
structure SaveSite where
  registry : Registry
  disk : Disk String UInt8

/-- What an operation may be answered, and what it leaves behind. -/
def SaveSite.serve (site : SaveSite) (op : SaveOp) (answer : op.Ans) : Option SaveSite :=
  match op, answer with
  | .pendingSnapshot, pending => if pending = site.registry.pending then some site else none
  | .vipsSnapshot, vips => if vips = site.registry.vips then some site else none
  | .createParent _, _ => some site
  | .create path, .ok file =>
      if file = (site.disk.create path).1 then some { site with disk := (site.disk.create path).2 }
      else none
  | .create _, .error _ => some site
  | .write file offset bytes, .wrote size =>
      if size ≤ bytes.length then
        some { site with disk := site.disk.write 0 file offset (bytes.take size) }
      else none
  | .write .., _ => some site
  | .rename source target, .renamed =>
      (site.disk.rename source target).map fun disk => { site with disk }
  | .rename source _, .notFound => if site.disk.names source = none then some site else none
  | .rename .., .failed _ => some site

/-- Saves `ι`; between their steps requests may change the registry. -/
def saveThreads {ι : Type} (serde : Serde) (path : String) :
    Threads ι SaveOp SaveOp.Ans Writing Saved SaveSite where
  first _ := startSave serde (some path)
  body _ := turnWrite
  serves _ := SaveSite.serve
  drifts site after := ∃ registry, after = { site with registry }

/-! ## Reading the log of a save -/

def pendingOf : SaveLog → Option State
  | [] => none
  | ⟨.pendingSnapshot, pending⟩ :: _ => some pending
  | _ :: past => pendingOf past

/-- The state that the save serializes. -/
def snapshot : SaveLog → Option State
  | [] => none
  | ⟨.vipsSnapshot, vips⟩ :: past => (pendingOf past).map fun pending => savedOver pending vips
  | _ :: past => snapshot past

/-- Between the create and the rename: the open file, and how much was written. -/
def progress : SaveLog → Option (Nat × Nat)
  | [] => none
  | ⟨.create _, .ok file⟩ :: _ => some (file, 0)
  | ⟨.write .., .wrote 0⟩ :: _ => none
  | ⟨.write .., .wrote size⟩ :: past => (progress past).map fun at_ => (at_.1, at_.2 + size)
  | ⟨.write .., .failed _⟩ :: _ => none
  | ⟨.rename .., _⟩ :: _ => none
  | _ :: past => progress past

/-- The file system failed of itself. -/
def Fails : Event SaveOp SaveOp.Ans → Prop
  | ⟨.createParent _, .error _⟩ => True
  | ⟨.create _, .error _⟩ => True
  | ⟨.write .., .wrote 0⟩ => True
  | ⟨.write .., .failed _⟩ => True
  | ⟨.rename .., .failed _⟩ => True
  | _ => False

/-- A file is absent, or complete with one of these states. -/
def Whole (serde : Serde) (states : State → Prop) (file : Option (List UInt8)) : Prop :=
  ∀ bytes, file = some bytes → ∃ state, states state ∧ bytes = serde.bytes state

/-! ## What each operation of a save relies on -/

/-- One snapshot, and the pieces of its text in order, before the rename. -/
def SaveOp.Proper (serde : Serde) (path : String) (op : SaveOp) (past : SaveLog) : Prop :=
  match op with
  | .vipsSnapshot => snapshot past = none ∧ progress past = none
  | .create name => name = withExtension path "tmp" ∧ ∃ state, snapshot past = some state
  | .write file offset bytes => ∃ state, snapshot past = some state ∧
      progress past = some (file, offset) ∧ offset ≤ (serde.bytes state).length ∧
        bytes = (serde.bytes state).drop offset
  | .rename source target => source = withExtension path "tmp" ∧ target = path ∧
      ∃ state, snapshot past = some state ∧
        ∃ file offset, progress past = some (file, offset) ∧ (serde.bytes state).length ≤ offset
  | _ => True

/-- The open file and what is still to be written are those of the log. -/
structure Underway (serde : Serde) (path : String) (state : State) (w : Writing) (log : SaveLog) :
    Prop where
  path : w.path = path
  snapshot : snapshot log = some state
  progress : progress log = some (w.file, w.offset)
  rest : w.rest = (serde.bytes state).drop w.offset

/-- The temporary file was not there to be renamed. -/
def Lost (event : Event SaveOp SaveOp.Ans) : Prop :=
  ∃ source target, event = ⟨.rename source target, .notFound⟩

/-- A save that is not `Ok` has a reason. -/
def Accounted (saved : Saved) (log : SaveLog) : Prop :=
  saved = .ok () ∨ ∃ event ∈ log, Fails event ∨ Lost event

theorem accounted_of_fails {saved : Saved} {event : Event SaveOp SaveOp.Ans} {past : SaveLog}
    (fails : Fails event) : Accounted saved (event :: past) :=
  .inr ⟨event, List.mem_cons_self, .inl fails⟩

section

open Program (Keeps)

variable {serde : Serde} {path : String} {state : State} {log : SaveLog}

theorem keeps_startWrite (taken : snapshot log = some state) :
    Keeps (SaveOp.Proper serde path)
      (LoopPost (fun w log => ∃ state, Underway serde path state w log) Accounted)
      (startWrite path (serde.bytes state)) log := by
  refine ⟨trivial, fun made => ?_⟩
  cases made with
  | error error => exact accounted_of_fails trivial
  | ok _ =>
      refine ⟨⟨rfl, state, taken⟩, fun opened => ?_⟩
      cases opened with
      | error error => exact accounted_of_fails trivial
      | ok file => exact ⟨state, rfl, taken, rfl, rfl⟩

theorem keeps_startSave :
    Keeps (SaveOp.Proper serde path)
      (LoopPost (fun w log => ∃ state, Underway serde path state w log) Accounted)
      (startSave serde (some path)) [] :=
  ⟨trivial, fun _ => ⟨⟨rfl, rfl⟩, fun _ => keeps_startWrite rfl⟩⟩

theorem keeps_turnWrite {w : Writing} (underway : Underway serde path state w log) :
    Keeps (SaveOp.Proper serde path)
      (LoopPost (fun w log => ∃ state, Underway serde path state w log) Accounted)
      (turnWrite w) log := by
  obtain ⟨_, file, offset, rest⟩ := w
  obtain ⟨rfl, taken, opened, left⟩ := underway
  unfold turnWrite
  cases rest with
  | nil =>
      -- Nothing is left, so all of it was written.
      have all : (serde.bytes state).length ≤ offset := List.drop_eq_nil_iff.mp left.symm
      refine ⟨⟨rfl, rfl, state, taken, file, offset, opened, all⟩, fun moved => ?_⟩
      cases moved with
      | renamed => exact .inl rfl
      | notFound => exact .inr ⟨_, List.mem_cons_self, .inr ⟨_, _, rfl⟩⟩
      | failed error => exact accounted_of_fails trivial
  | cons b bytes =>
      have left : b :: bytes = (serde.bytes state).drop offset := left
      have within : offset ≤ (serde.bytes state).length := by
        by_contra beyond
        rw [List.drop_eq_nil_of_le (Nat.le_of_lt (Nat.lt_of_not_le beyond))] at left
        cases left
      refine ⟨⟨state, taken, opened, within, left⟩, fun piece => ?_⟩
      match piece with
      | .failed error => exact accounted_of_fails trivial
      | .interrupted => exact ⟨state, rfl, taken, opened, left⟩
      | .wrote 0 => exact accounted_of_fails trivial
      | .wrote (size + 1) =>
          refine ⟨state, rfl, taken, ?_, ?_⟩
          · change (progress log).map _ = _
            rw [opened]
            rfl
          · change (b :: bytes).drop (size + 1) = (serde.bytes state).drop (offset + (size + 1))
            rw [left, List.drop_drop]

end

/-! ## All saves together -/

abbrev SaveConfig (ι : Type) := Config ι SaveOp SaveOp.Ans Writing Saved SaveSite

/-- The states that saves have serialized, before or by now. -/
def Produced {ι : Type} (earlier : State → Prop) (config : SaveConfig ι) (state : State) : Prop :=
  earlier state ∨ ∃ i, snapshot (config.histories i) = some state

/-- The save is about to create the temporary file. -/
def creates : SaveProg (Writing ⊕ Saved) → Bool
  | .call (.create _) _ => true
  | _ => false

/-- No save creates the temporary file while another is between its create and its rename. -/
def OneAtATime {ι : Type} (who : Option ι) (config : SaveConfig ι) : Prop :=
  ∀ i ∈ who, creates (config.threads i) = true →
    ∀ j, j ≠ i → progress (config.histories j) = none

/-- The temporary file is of one save, and holds what that save has written. -/
structure Orderly {ι : Type} (serde : Serde) (path : String) (earlier : State → Prop)
    (config : SaveConfig ι) : Prop where
  opened : ∀ i file offset, progress (config.histories i) = some (file, offset) →
    config.world.disk.names (withExtension path "tmp") = some file ∧
      ∃ state, snapshot (config.histories i) = some state ∧
        config.world.disk.contents file = (serde.bytes state).take offset
  alone : ∀ i j, progress (config.histories i) ≠ none → progress (config.histories j) ≠ none → i = j
  found : ∀ i, ∀ event ∈ config.histories i, ¬ Lost event
  whole : Whole serde (Produced earlier config) (config.world.disk.read path)

/-- While a save has its file open, no other one has. -/
theorem Orderly.others_closed {ι : Type} {serde : Serde} {path : String}
    {earlier : State → Prop} {config : SaveConfig ι} (orderly : Orderly serde path earlier config)
    {i : ι} {opened : Nat × Nat} (mine : progress (config.histories i) = some opened) (j : ι) (apart : j ≠ i) :
    progress (config.histories j) = none := by
  by_contra theirs
  exact apart (orderly.alone j i theirs (by rw [mine]; exact nofun))

section

variable {ι : Type} [DecidableEq ι] {serde : Serde} {path : String} {earlier : State → Prop}
  {config : SaveConfig ι}

/-- In every interleaving each save is proper. -/
theorem keeps_save {allowed : Option ι → SaveConfig ι → Prop} {site : SaveSite}
    (reached : Threads.Reaches (saveThreads serde path) allowed
      ((saveThreads serde path).initial site) config) (i : ι) :
    Program.Keeps (SaveOp.Proper serde path)
      (LoopPost (fun w log => ∃ state, Underway serde path state w log) Accounted)
      (config.threads i) (config.histories i) :=
  (reached.solo i).keeps keeps_startSave fun _ _ ⟨_, underway⟩ => keeps_turnWrite underway

/-- What one operation must do for all to stay in order. -/
theorem Orderly.advance (orderly : Orderly serde path earlier config) {i : ι}
    {rest : SaveProg (Writing ⊕ Saved)} {event : Event SaveOp SaveOp.Ans} {world : SaveSite}
    (lasting : ∀ state, snapshot (config.histories i) = some state →
      snapshot (event :: config.histories i) = some state)
    (own : ∀ file offset, progress (event :: config.histories i) = some (file, offset) →
      world.disk.names (withExtension path "tmp") = some file ∧
        ∃ state, snapshot (event :: config.histories i) = some state ∧
          world.disk.contents file = (serde.bytes state).take offset)
    (others : world.disk = config.world.disk ∨
      ∀ j, j ≠ i → progress (config.histories j) = none)
    (alone : progress (event :: config.histories i) ≠ none → progress (config.histories i) ≠ none ∨
      ∀ j, j ≠ i → progress (config.histories j) = none)
    (found : ¬ Lost event)
    (whole : world.disk.read path = config.world.disk.read path ∨
      ∃ state, snapshot (event :: config.histories i) = some state ∧
        world.disk.read path = some (serde.bytes state)) :
    Orderly serde path earlier (config.advance i rest event world) := by
  have self : (config.advance i rest event world).histories i = event :: config.histories i := by
    simp only [Config.advance, Function.update_self]
  have other {j : ι} (apart : j ≠ i) :
      (config.advance i rest event world).histories j = config.histories j := by
    simp only [Config.advance, Function.update_of_ne apart]
  have produced {state : State} (before : Produced earlier config state) :
      Produced earlier (config.advance i rest event world) state := by
    rcases before with before | ⟨j, taken⟩
    · exact .inl before
    · refine .inr ⟨j, ?_⟩
      by_cases here : j = i
      · subst here
        rw [self]
        exact lasting state taken
      · rw [other here]
        exact taken
  constructor
  · intro j file offset opened
    by_cases here : j = i
    · subst here
      rw [self] at opened ⊢
      exact own file offset opened
    · rw [other here] at opened ⊢
      rcases others with same | closed
      · have before := orderly.opened j file offset opened
        rwa [← same] at before
      · cases opened.symm.trans (closed j here)
  · -- Of two open files one is the mover's own, and then the other one was open before.
    have apart {j : ι} (opened : progress (event :: config.histories i) ≠ none)
        (second : progress (config.histories j) ≠ none) : i = j := by
      rcases alone opened with before | closed
      · exact orderly.alone i j before second
      · by_cases here : j = i
        · exact here.symm
        · exact absurd (closed j here) second
    intro j k first second
    by_cases hj : j = i
    · by_cases hk : k = i
      · rw [hj, hk]
      · rw [hj, self] at first
        rw [other hk] at second
        rw [hj, apart first second]
    · rw [other hj] at first
      by_cases hk : k = i
      · rw [hk, self] at second
        rw [hk, apart second first]
      · rw [other hk] at second
        exact orderly.alone j k first second
  · intro j happened member
    by_cases here : j = i
    · subst here
      rw [self] at member
      rcases List.mem_cons.mp member with rfl | older
      · exact found
      · exact orderly.found j happened older
    · rw [other here] at member
      exact orderly.found j happened member
  · intro bytes file
    rcases whole with same | ⟨state, taken, complete⟩
    · obtain ⟨state, before, same⟩ := orderly.whole bytes (same ▸ file)
      exact ⟨state, produced before, same⟩
    · refine ⟨state, .inr ⟨i, by rw [self, taken]⟩, ?_⟩
      exact Option.some.inj (file.symm.trans complete)

theorem not_lost {op : SaveOp} {answer : op.Ans} (other : ∀ source target, op ≠ .rename source target) :
    ¬ Lost ⟨op, answer⟩ := by
  rintro ⟨source, target, same⟩
  exact other source target (congrArg Sigma.fst same)

/-- An operation that leaves the disk, the log's state and its open file as they are. -/
theorem Orderly.idle (orderly : Orderly serde path earlier config) {i : ι}
    {rest : SaveProg (Writing ⊕ Saved)} {event : Event SaveOp SaveOp.Ans} {world : SaveSite}
    (disk : world.disk = config.world.disk)
    (states : snapshot (event :: config.histories i) = snapshot (config.histories i))
    (still : progress (event :: config.histories i) = progress (config.histories i))
    (found : ¬ Lost event) : Orderly serde path earlier (config.advance i rest event world) := by
  refine orderly.advance ?_ ?_ (.inl disk) ?_ found (.inl (by rw [disk]))
  · intro state taken
    rw [states, taken]
  · intro file offset opened
    rw [still] at opened
    rw [disk, states]
    exact orderly.opened i file offset opened
  · intro opened
    rw [still] at opened
    exact .inl opened

/-- An operation after which the log has no file open, and that leaves the disk as it is. -/
theorem Orderly.closes (orderly : Orderly serde path earlier config) {i : ι}
    {rest : SaveProg (Writing ⊕ Saved)} {event : Event SaveOp SaveOp.Ans} {world : SaveSite}
    (disk : world.disk = config.world.disk)
    (lasting : ∀ state, snapshot (config.histories i) = some state →
      snapshot (event :: config.histories i) = some state)
    (closed : progress (event :: config.histories i) = none) (found : ¬ Lost event) :
    Orderly serde path earlier (config.advance i rest event world) := by
  refine orderly.advance lasting ?_ (.inl disk) ?_ found (.inl (by rw [disk]))
  · intro file offset opened
    cases closed.symm.trans opened
  · exact fun opened => absurd closed opened

theorem Orderly.call (orderly : Orderly serde path earlier config)
    (apart : withExtension path "tmp" ≠ path) {i : ι} {rest : SaveProg (Writing ⊕ Saved)}
    {op : SaveOp} {answer : op.Ans} {world : SaveSite}
    (proper : op.Proper serde path (config.histories i))
    (admitted : ∀ name, op = .create name → ∀ j, j ≠ i → progress (config.histories j) = none)
    (served : config.world.serve op answer = some world) :
    Orderly serde path earlier (config.advance i rest ⟨op, answer⟩ world) := by
  cases op with
  | pendingSnapshot =>
      obtain ⟨_, ⟨⟩⟩ := Option.ite_none_right_eq_some.mp served
      exact orderly.idle rfl rfl rfl (not_lost nofun)
  | vipsSnapshot =>
      obtain ⟨_, ⟨⟩⟩ := Option.ite_none_right_eq_some.mp served
      refine orderly.closes rfl (fun state taken => ?_) proper.2 (not_lost nofun)
      cases proper.1.symm.trans taken
  | createParent name =>
      cases served
      exact orderly.idle rfl rfl rfl (not_lost nofun)
  | create name =>
      cases answer with
      | error error =>
          cases served
          exact orderly.idle rfl rfl rfl (not_lost nofun)
      | ok file =>
          obtain ⟨rfl, ⟨⟩⟩ := Option.ite_none_right_eq_some.mp served
          obtain ⟨rfl, state, taken⟩ := proper
          obtain ⟨named, cut⟩ := config.world.disk.create_self (withExtension path "tmp")
          have closed := admitted _ rfl
          refine orderly.advance (fun _ taken => taken) ?_ (.inr closed) (fun _ => .inr closed)
            (not_lost nofun) (.inl (Disk.read_create_of_ne apart.symm))
          rintro _ _ ⟨⟩
          exact ⟨named, state, taken, by rw [cut, List.take_zero]⟩
  | write file offset bytes =>
      obtain ⟨state, taken, opened, within, rfl⟩ := proper
      obtain ⟨named, _, same, contents⟩ := orderly.opened i file offset opened
      obtain rfl := Option.some.inj (same.symm.trans taken)
      cases answer with
      | failed error =>
          cases served
          exact orderly.closes rfl (fun _ taken => taken) rfl (not_lost nofun)
      | interrupted =>
          cases served
          exact orderly.idle rfl rfl rfl (not_lost nofun)
      | wrote size =>
          obtain ⟨_, ⟨⟩⟩ := Option.ite_none_right_eq_some.mp served
          refine orderly.advance (fun _ taken => taken) ?_ (.inr (orderly.others_closed opened))
            (fun _ => .inr (orderly.others_closed opened)) (not_lost nofun)
            (.inl (Disk.read_write_of_ne 0 offset _ named apart.symm))
          intro file' offset' now
          cases size with
          | zero => cases now
          | succ size =>
              change (progress (config.histories i)).map _ = _ at now
              rw [opened] at now
              cases now
              refine ⟨named, _, taken, ?_⟩
              change (Disk.write 0 config.world.disk file offset _).contents file = _
              rw [Disk.contents_write, contents, overwrite_next 0 _ _ within]
  | rename source target =>
      obtain ⟨rfl, rfl, state, taken, file, offset, opened, all⟩ := proper
      obtain ⟨named, _, same, contents⟩ := orderly.opened i file offset opened
      obtain rfl := Option.some.inj (same.symm.trans taken)
      cases answer with
      | failed error =>
          cases served
          exact orderly.closes rfl (fun _ taken => taken) rfl (by rintro ⟨_, _, ⟨⟩⟩)
      | notFound =>
          obtain ⟨gone, _⟩ := Option.ite_none_right_eq_some.mp served
          cases named.symm.trans gone
      | renamed =>
          obtain ⟨disk, moved, rfl⟩ := Option.map_eq_some_iff.mp served
          refine orderly.advance (fun _ taken => taken) nofun (.inr (orderly.others_closed opened))
            (fun opened => absurd rfl opened) (by rintro ⟨_, _, ⟨⟩⟩) (.inr ⟨_, taken, ?_⟩)
          rw [(Disk.read_rename moved).1, Disk.read_of_named named, contents,
            List.take_of_length_le all]

theorem orderly_of_reaches (apart : withExtension path "tmp" ≠ path) {site : SaveSite}
    (start : Whole serde earlier (site.disk.read path))
    (reached : Threads.Reaches (saveThreads serde path) OneAtATime
      ((saveThreads serde path).initial site) config) : Orderly serde path earlier config := by
  have initially : Orderly serde path earlier
      ((saveThreads serde path).initial site : SaveConfig ι) := by
    refine ⟨nofun, fun i j first => absurd rfl first, nofun, fun bytes file => ?_⟩
    obtain ⟨state, before, same⟩ := start bytes file
    exact ⟨state, .inl before, same⟩
  refine reached.invariant initially ?_
  intro who config after reached orderly admitted stepped
  cases stepped with
  | turn looped => exact ⟨orderly.opened, orderly.alone, orderly.found, orderly.whole⟩
  | drift moved =>
      obtain ⟨registry, rfl⟩ := moved
      exact ⟨orderly.opened, orderly.alone, orderly.found, orderly.whole⟩
  | @call _ i op next world answer waiting served =>
      have keeps := keeps_save reached i
      rw [waiting] at keeps
      refine orderly.call apart keeps.1 ?_ served
      rintro name rfl
      exact admitted i rfl (by rw [waiting]; rfl)

end

/-- The state file is absent or whole, and a save on which no file operation failed is `Ok`. -/
structure StaysWhole {ι : Type} (serde : Serde) (path : String) (earlier : State → Prop)
    (config : SaveConfig ι) : Prop where
  whole : Whole serde (Produced earlier config) (config.world.disk.read path)
  saved : ∀ i saved, config.threads i = .done (.inr saved) →
    (∀ event ∈ config.histories i, ¬ Fails event) → saved = .ok ()

/--
When the temporary file is another one than the state file, and no save creates
it while another is between its create and its rename, the state file is absent
or complete at every moment.
-/
theorem staysWhole_of_oneAtATime {ι : Type} [DecidableEq ι] (serde : Serde) (path : String)
    (apart : withExtension path "tmp" ≠ path) (earlier : State → Prop) (site : SaveSite)
    (start : Whole serde earlier (site.disk.read path)) (config : SaveConfig ι)
    (reached : Threads.Reaches (saveThreads serde path) OneAtATime
      ((saveThreads serde path).initial site) config) : StaysWhole serde path earlier config := by
  have orderly := orderly_of_reaches apart start reached
  refine ⟨orderly.whole, fun i saved ended unfailing => ?_⟩
  have accounted := keeps_save reached i
  rw [ended] at accounted
  rcases accounted with ok | ⟨event, member, fails | lost⟩
  · exact ok
  · exact absurd fails (unfailing event member)
  · exact absurd lost (orderly.found i event member)

/-! ## Two saves at once -/

/-- No file operation fails of itself, and a file is written in one piece. -/
def smooth {ι : Type} (_ : ι) (site : SaveSite) (op : SaveOp) : op.Ans :=
  match op with
  | .pendingSnapshot => site.registry.pending
  | .vipsSnapshot => site.registry.vips
  | .createParent _ => .ok ()
  | .create path => .ok (site.disk.create path).1
  | .write _ _ bytes => .wrote bytes.length
  | .rename source _ => if site.disk.names source = none then .notFound else .renamed

/-- `serde_json` on the state without VIPs. -/
def prettyEmpty : Serde where
  toStringPretty _ := "\x7b\n  \"vips\": \x7b\x7d\n\x7d"
  fromStr _ := .error "EOF while parsing a value at line 1 column 0"

/-- The last VIPs were removed, and nothing was ever saved. -/
def emptiedSite : SaveSite where
  registry := Registry.new (some stateFile)
  disk := .empty

def twoSaves : Threads Bool SaveOp SaveOp.Ans Writing Saved SaveSite :=
  saveThreads prettyEmpty stateFile

instance (who : Option Bool) (config : SaveConfig Bool) : Decidable (OneAtATime who config) :=
  inferInstanceAs (Decidable (∀ i ∈ who, creates (config.threads i) = true →
    ∀ j, j ≠ i → progress (config.histories j) = none))

def afterSaves (allowed : Option Bool → SaveConfig Bool → Prop)
    [∀ who config, Decidable (allowed who config)] (schedule : List Bool) : SaveConfig Bool :=
  twoSaves.playSchedule allowed smooth (twoSaves.initial emptiedSite) schedule

/-- The first save has written its text when the second one truncates the file, and renames it. -/
def truncatingSchedule : List Bool :=
  List.replicate 6 false ++ List.replicate 4 true ++ List.replicate 2 false

/-- The state file is empty. -/
theorem truncated_state_file :
    ¬ ∀ (ι : Type) (_ : DecidableEq ι) (serde : Serde) (path : String) (earlier : State → Prop)
      (site : SaveSite) (config : SaveConfig ι), Whole serde earlier (site.disk.read path) →
        Threads.Reaches (saveThreads serde path) Threads.anySchedule
            ((saveThreads serde path).initial site) config →
          StaysWhole serde path earlier config := by
  intro whole
  have stays := whole Bool inferInstance prettyEmpty stateFile (fun _ => False) emptiedSite
    (afterSaves Threads.anySchedule truncatingSchedule) nofun
    (Threads.Reaches.playSchedule smooth truncatingSchedule .start)
  have empty : (afterSaves Threads.anySchedule truncatingSchedule).world.disk.read stateFile =
      some [] := by
    decide +kernel
  obtain ⟨state, _, nothing⟩ := stays.whole [] empty
  have text : prettyEmpty.bytes state = bytesOf "\x7b\n  \"vips\": \x7b\x7d\n\x7d" := rfl
  rw [text] at nothing
  exact absurd nothing (by decide +kernel)

theorem staysWhole_oneByOne :
    StaysWhole prettyEmpty stateFile (fun _ => False)
      (afterSaves OneAtATime (List.replicate 8 false ++ List.replicate 8 true)) :=
  staysWhole_of_oneAtATime prettyEmpty stateFile (by decide) _ emptiedSite nofun _
    (Threads.Reaches.playSchedule smooth _ .start)

end StormLb.Vips
