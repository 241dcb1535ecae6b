import Mathlib.Logic.Function.Basic
import StormLb.Effects.Program

/-!
# Interleaved threads over a shared world

Each thread runs a loop of its own; one step of the system performs one
operation of one thread, which the shared world answers.  Every thread of an
interleaving is, taken alone, a run of its loop, so whatever is proved of the
runs of one loop holds of it in every interleaving.
-/

namespace StormLb.Effects

/--
Threads `ι` and the world they share.  `serves i world op answer` is the world
left behind when the world may give thread `i` that answer, and `none` when it
may not.  `drifts` are the moves of the world that no thread makes.
-/
structure Threads (ι Op : Type) (Ans : Op → Type) (σ α W : Type) where
  first : ι → Program Op Ans (σ ⊕ α)
  body : ι → σ → Program Op Ans (σ ⊕ α)
  serves : ι → W → (op : Op) → Ans op → Option W
  drifts : W → W → Prop

/-- Where every thread stands, what it did so far, and the shared world. -/
structure Config (ι Op : Type) (Ans : Op → Type) (σ α W : Type) where
  threads : ι → Program Op Ans (σ ⊕ α)
  histories : ι → History Op Ans
  world : W

section

variable {ι Op : Type} [DecidableEq ι] {Ans : Op → Type} {σ α W : Type}

/-- The configuration after thread `i` performed `op` and continues with `rest`. -/
def Config.advance (config : Config ι Op Ans σ α W) (i : ι) (rest : Program Op Ans (σ ⊕ α))
    (event : Event Op Ans) (world : W) : Config ι Op Ans σ α W where
  threads := Function.update config.threads i rest
  histories := Function.update config.histories i (event :: config.histories i)
  world := world

theorem Config.advance_threads_self (config : Config ι Op Ans σ α W) (i : ι)
    (rest : Program Op Ans (σ ⊕ α)) (event : Event Op Ans) (world : W) :
    (config.advance i rest event world).threads i = rest :=
  Function.update_self ..

theorem Config.advance_histories_self (config : Config ι Op Ans σ α W) (i : ι)
    (rest : Program Op Ans (σ ⊕ α)) (event : Event Op Ans) (world : W) :
    (config.advance i rest event world).histories i = event :: config.histories i :=
  Function.update_self ..

theorem Config.advance_histories_of_ne (config : Config ι Op Ans σ α W) {i j : ι} (apart : j ≠ i)
    (rest : Program Op Ans (σ ⊕ α)) (event : Event Op Ans) (world : W) :
    (config.advance i rest event world).histories j = config.histories j :=
  Function.update_of_ne apart ..

namespace Threads

/-- No thread has done anything. -/
def initial (system : Threads ι Op Ans σ α W) (world : W) : Config ι Op Ans σ α W where
  threads := system.first
  histories := fun _ => []
  world := world

/-- One step: an operation of a thread, a thread going round its loop, or a drift. -/
inductive Step (system : Threads ι Op Ans σ α W) :
    Option ι → Config ι Op Ans σ α W → Config ι Op Ans σ α W → Prop where
  | call {config : Config ι Op Ans σ α W} {i : ι} {op : Op}
      {next : Ans op → Program Op Ans (σ ⊕ α)} {world : W} (answer : Ans op)
      (waiting : config.threads i = .call op next)
      (served : system.serves i config.world op answer = some world) :
      Step system (some i) config (config.advance i (next answer) ⟨op, answer⟩ world)
  | turn {config : Config ι Op Ans σ α W} {i : ι} {state : σ}
      (looped : config.threads i = .done (.inl state)) :
      Step system (some i) config
        { config with threads := Function.update config.threads i (system.body i state) }
  | drift {config : Config ι Op Ans σ α W} {world : W} (moved : system.drifts config.world world) :
      Step system none config { config with world := world }

/--
The configurations reached from `start` by steps that `allowed` admits; it sees
who moves and the configuration before the step.
-/
inductive Reaches (system : Threads ι Op Ans σ α W)
    (allowed : Option ι → Config ι Op Ans σ α W → Prop) (start : Config ι Op Ans σ α W) :
    Config ι Op Ans σ α W → Prop where
  | start : Reaches system allowed start start
  | step {config after : Config ι Op Ans σ α W} {who : Option ι}
      (before : Reaches system allowed start config) (admitted : allowed who config)
      (stepped : system.Step who config after) : Reaches system allowed start after

/-- Any schedule at all. -/
def anySchedule : Option ι → Config ι Op Ans σ α W → Prop :=
  fun _ _ => True

instance (who : Option ι) (config : Config ι Op Ans σ α W) :
    Decidable (anySchedule who config) :=
  .isTrue trivial

variable {system : Threads ι Op Ans σ α W} {allowed : Option ι → Config ι Op Ans σ α W → Prop}

/-- Each thread of an interleaving is a run of its own loop. -/
theorem Reaches.solo {world : W} {config : Config ι Op Ans σ α W}
    (reached : Reaches system allowed (system.initial world) config) (i : ι) :
    Runs (system.body i) (system.first i) (config.threads i) (config.histories i) := by
  induction reached with
  | start => exact .start
  | @step config after who before admitted stepped ih =>
      cases stepped with
      | @call _ j op next world answer waiting served =>
          by_cases same : i = j
          · subst same
            rw [waiting] at ih
            simpa [Config.advance] using ih.call answer
          · simpa [Config.advance, same] using ih
      | @turn _ j state looped =>
          by_cases same : i = j
          · subst same
            rw [looped] at ih
            simpa using ih.turn
          · simpa [same] using ih
      | drift moved => exact ih

/-- The invariant rule: a property kept by every admitted step holds throughout. -/
theorem Reaches.invariant {start : Config ι Op Ans σ α W}
    {holds : Config ι Op Ans σ α W → Prop} (initially : holds start)
    (kept : ∀ who config after, Reaches system allowed start config → holds config →
      allowed who config → system.Step who config after → holds after)
    {config : Config ι Op Ans σ α W} (reached : Reaches system allowed start config) :
    holds config := by
  induction reached with
  | start => exact initially
  | step before admitted stepped ih => exact kept _ _ _ before ih admitted stepped

/-! ## Playing a schedule -/

/--
Let thread `i` move once when that is admitted, an oracle choosing the answer;
a move that is not admitted or not served is skipped.
-/
def move (system : Threads ι Op Ans σ α W)
    (allowed : Option ι → Config ι Op Ans σ α W → Prop) [∀ who config, Decidable (allowed who config)]
    (oracle : ι → W → (op : Op) → Ans op) (config : Config ι Op Ans σ α W) (i : ι) :
    Config ι Op Ans σ α W :=
  if allowed (some i) config then
    match config.threads i with
    | .call op next =>
        let answer := oracle i config.world op
        match system.serves i config.world op answer with
        | some world => config.advance i (next answer) ⟨op, answer⟩ world
        | none => config
    | .done (.inl state) =>
        { config with threads := Function.update config.threads i (system.body i state) }
    | .done (.inr _) => config
  else config

def playSchedule (system : Threads ι Op Ans σ α W)
    (allowed : Option ι → Config ι Op Ans σ α W → Prop) [∀ who config, Decidable (allowed who config)]
    (oracle : ι → W → (op : Op) → Ans op) (config : Config ι Op Ans σ α W) (schedule : List ι) :
    Config ι Op Ans σ α W :=
  schedule.foldl (system.move allowed oracle) config

theorem Reaches.move [∀ who config, Decidable (allowed who config)]
    (oracle : ι → W → (op : Op) → Ans op) {start config : Config ι Op Ans σ α W} (i : ι)
    (reached : Reaches system allowed start config) :
    Reaches system allowed start (system.move allowed oracle config i) := by
  unfold Threads.move
  split
  · rename_i admitted
    split
    · rename_i op next waiting
      dsimp only
      split
      · rename_i served
        exact reached.step admitted (.call _ waiting served)
      · exact reached
    · rename_i looped
      exact reached.step admitted (.turn looped)
    · exact reached
  · exact reached

/-- Whatever a played schedule leads to is reached. -/
theorem Reaches.playSchedule [∀ who config, Decidable (allowed who config)]
    (oracle : ι → W → (op : Op) → Ans op) {start config : Config ι Op Ans σ α W}
    (schedule : List ι) (reached : Reaches system allowed start config) :
    Reaches system allowed start (system.playSchedule allowed oracle config schedule) := by
  induction schedule generalizing config with
  | nil => exact reached
  | cons i rest ih => exact ih (reached.move oracle i)

end Threads

end

end StormLb.Effects
