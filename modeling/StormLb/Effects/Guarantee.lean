import StormLb.Effects.Threads

/-!
# Threads that rely on each other

A thread among others: between its operations the world moves as the thread
relies on, and each of its operations moves the world as the thread guarantees.
When what a thread guarantees is what every other thread relies on, then what is
proved of each loop on its own holds of all of them at once.
-/

namespace StormLb.Effects

variable {ι Op : Type} {Ans : Op → Type} {σ α β W : Type}

namespace Program

/--
However the world moves in between, each operation that is served moves it as
guaranteed, and the program ends with such a value and world.
-/
def Honours (serves : W → (op : Op) → Ans op → Option W) (rely guarantee : W → W → Prop)
    (post : α → W → Prop) : Program Op Ans α → W → Prop
  | .done value, world => ∀ later, rely world later → post value later
  | .call op next, world =>
      ∀ later, rely world later → ∀ answer after, serves later op answer = some after →
        guarantee later after ∧ Honours serves rely guarantee post (next answer) after

variable {serves : W → (op : Op) → Ans op → Option W} {rely guarantee : W → W → Prop}
  {post : α → W → Prop}

/-- What is relied on may happen before the program goes on. -/
theorem Honours.later (trans : ∀ a b c, rely a b → rely b c → rely a c)
    {program : Program Op Ans α} {world later : W}
    (honours : Honours serves rely guarantee post program world) (moved : rely world later) :
    Honours serves rely guarantee post program later := by
  cases program with
  | done value => exact fun last more => honours last (trans _ _ _ moved more)
  | call op next => exact fun last more => honours last (trans _ _ _ moved more)

/-- The rule of consequence. -/
theorem Honours.weaken {after : α → W → Prop}
    (weaker : ∀ value world, post value world → after value world) {program : Program Op Ans α}
    {world : W} (honours : Honours serves rely guarantee post program world) :
    Honours serves rely guarantee after program world := by
  induction program generalizing world with
  | done value => exact fun later moved => weaker value later (honours later moved)
  | call op next ih =>
      intro later moved answer left served
      obtain ⟨guaranteed, rest⟩ := honours later moved answer left served
      exact ⟨guaranteed, ih answer rest⟩

/-- The rule of sequencing. -/
theorem Honours.bind (refl : ∀ world, rely world world) {between : α → W → Prop}
    {post : β → W → Prop} {program : Program Op Ans α} {rest : α → Program Op Ans β} {world : W}
    (first : Honours serves rely guarantee between program world)
    (second : ∀ value world, between value world →
      Honours serves rely guarantee post (rest value) world) :
    Honours serves rely guarantee post (program.bind rest) world := by
  induction program generalizing world with
  | done value => exact second value world (first world (refl world))
  | call op next ih =>
      intro later moved answer left served
      obtain ⟨guaranteed, more⟩ := first later moved answer left served
      exact ⟨guaranteed, ih answer more⟩

end Program

namespace Threads

variable [DecidableEq ι] {system : Threads ι Op Ans σ α W}
  {allowed : Option ι → Config ι Op Ans σ α W → Prop} {rely guarantee : ι → W → W → Prop}
  {invariant : ι → σ → W → Prop} {result : ι → α → W → Prop} {holds : W → Prop}
  {config : Config ι Op Ans σ α W} {world : W}

/--
The rule of parallel composition: threads that guarantee what the others rely on
honour that at every moment of every interleaving.
-/
theorem Reaches.honours (trans : ∀ i a b c, rely i a b → rely i b c → rely i a c)
    (refl : ∀ i world, rely i world world)
    (drifted : ∀ i before after, system.drifts before after → rely i before after)
    (guaranteed : ∀ i j before after, i ≠ j → guarantee j before after → rely i before after)
    (first : ∀ i, Program.Honours (system.serves i) (rely i) (guarantee i)
      (Sum.elim (invariant i) (result i)) (system.first i) world)
    (body : ∀ i state world, invariant i state world →
      Program.Honours (system.serves i) (rely i) (guarantee i)
        (Sum.elim (invariant i) (result i)) (system.body i state) world)
    (reached : Reaches system allowed (system.initial world) config) (i : ι) :
    Program.Honours (system.serves i) (rely i) (guarantee i) (Sum.elim (invariant i) (result i))
      (config.threads i) config.world := by
  induction reached generalizing i with
  | start => exact first i
  | @step config after who before admitted stepped ih =>
      cases stepped with
      | @call _ j op next world answer waiting served =>
          have moved := ih j
          rw [waiting] at moved
          obtain ⟨guarantees, rest⟩ := moved _ (refl j _) answer world served
          by_cases own : i = j
          · subst own
            rw [Config.advance_threads_self]
            exact rest
          · have others : (config.advance j (next answer) ⟨op, answer⟩ world).threads i =
                config.threads i := Function.update_of_ne own ..
            rw [others]
            exact (ih i).later (trans i) (guaranteed i j _ _ own guarantees)
      | @turn _ j state looped =>
          by_cases own : i = j
          · subst own
            have ended := ih i
            rw [looped] at ended
            dsimp only
            rw [Function.update_self]
            exact body i state _ (ended _ (refl i _))
          · dsimp only
            rw [Function.update_of_ne own]
            exact ih i
      | drift moved => exact (ih i).later (trans i) (drifted i _ _ moved)

/-- What no drift and no guaranteed move ends holds throughout. -/
theorem Reaches.guaranteed (refl : ∀ i world, rely i world world)
    (honours : ∀ config, Reaches system allowed (system.initial world) config → ∀ i,
      Program.Honours (system.serves i) (rely i) (guarantee i) (Sum.elim (invariant i) (result i))
        (config.threads i) config.world)
    (drifted : ∀ before after, system.drifts before after → holds before → holds after)
    (kept : ∀ i before after, guarantee i before after → holds before → holds after)
    (initially : holds world) (reached : Reaches system allowed (system.initial world) config) :
    holds config.world := by
  induction reached with
  | start => exact initially
  | @step config after who before admitted stepped ih =>
      cases stepped with
      | @call _ j op next world answer waiting served =>
          have moved := honours config before j
          rw [waiting] at moved
          exact kept j _ _ (moved _ (refl j _) answer world served).1 ih
      | turn looped => exact ih
      | drift moved => exact drifted _ _ moved ih

end Threads

end StormLb.Effects
