import Mathlib.Logic.Relation
import StormLb.Effects.Threads

/-!
# Programs in a drifting world

A program in a world that moves between its operations: whatever the world drifts
to and answers, the program ends with such a value and world.  Of the one thread
of a system this holds at every moment, so every turn of its loop keeps what it is
proved to keep.
-/

namespace StormLb.Effects

section

variable {Op : Type} {Ans : Op → Type} {σ α β W : Type}
  {serves : W → (op : Op) → Ans op → Option W} {drifts : W → W → Prop}

namespace Program

/-- However the world drifts and answers, the program ends with such a value and world. -/
def Withstands (serves : W → (op : Op) → Ans op → Option W) (drifts : W → W → Prop)
    (post : α → W → Prop) : Program Op Ans α → W → Prop
  | .done value, world => ∀ later, Relation.ReflTransGen drifts world later → post value later
  | .call op next, world =>
      ∀ later, Relation.ReflTransGen drifts world later → ∀ answer after,
        serves later op answer = some after → Withstands serves drifts post (next answer) after

variable {post : α → W → Prop}

/-- A program withstands more drifting. -/
theorem Withstands.drift {program : Program Op Ans α} {world later : W}
    (withstands : Withstands serves drifts post program world)
    (drifted : Relation.ReflTransGen drifts world later) :
    Withstands serves drifts post program later := by
  cases program with
  | done value => exact fun last more => withstands last (drifted.trans more)
  | call op next => exact fun last more => withstands last (drifted.trans more)

/-- The rule of consequence. -/
theorem Withstands.weaken {after : α → W → Prop}
    (weaker : ∀ value world, post value world → after value world) {program : Program Op Ans α}
    {world : W} (withstands : Withstands serves drifts post program world) :
    Withstands serves drifts after program world := by
  induction program generalizing world with
  | done value => exact fun later drifted => weaker value later (withstands later drifted)
  | call op next ih =>
      exact fun later drifted answer left served => ih answer (withstands later drifted answer left served)

/-- The rule of sequencing. -/
theorem Withstands.bind {between : α → W → Prop} {post : β → W → Prop}
    {program : Program Op Ans α} {rest : α → Program Op Ans β} {world : W}
    (first : Withstands serves drifts between program world)
    (second : ∀ value world, between value world →
      Withstands serves drifts post (rest value) world) :
    Withstands serves drifts post (program.bind rest) world := by
  induction program generalizing world with
  | done value => exact second value world (first world .refl)
  | call op next ih =>
      exact fun later drifted answer left served => ih answer (first later drifted answer left served)

end Program

/-- What no drift changes, many do not. -/
theorem stable_of_drifts {holds : W → Prop}
    (stable : ∀ world later, drifts world later → holds world → holds later) {world later : W}
    (drifted : Relation.ReflTransGen drifts world later) (now : holds world) : holds later := by
  induction drifted with
  | refl => exact now
  | tail _ last ih => exact stable _ _ last ih

end

section

variable {Op : Type} {Ans : Op → Type} {σ α W : Type}

namespace Threads

/-- One step of a system with one thread, which withstands what is left of its turn. -/
theorem Step.withstands {system : Threads Unit Op Ans σ α W} {invariant : σ → W → Prop}
    {result : α → W → Prop}
    (kept : ∀ state world, invariant state world →
      Program.Withstands (system.serves ()) system.drifts (Sum.elim invariant result)
        (system.body () state) world)
    {who : Option Unit} {config after : Config Unit Op Ans σ α W}
    (stepped : system.Step who config after)
    (withstands : Program.Withstands (system.serves ()) system.drifts (Sum.elim invariant result)
      (config.threads ()) config.world) :
    Program.Withstands (system.serves ()) system.drifts (Sum.elim invariant result)
      (after.threads ()) after.world := by
  cases stepped with
  | @call _ i op next world answer waiting served =>
      cases i
      rw [waiting] at withstands
      rw [Config.advance_threads_self]
      exact withstands _ .refl _ _ served
  | @turn _ i state looped =>
      cases i
      rw [looped] at withstands
      dsimp only
      rw [Function.update_self]
      exact kept state _ (withstands _ .refl)
  | drift moved => exact withstands.drift (.single moved)

end Threads

end

end StormLb.Effects
