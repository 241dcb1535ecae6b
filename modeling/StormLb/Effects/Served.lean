import StormLb.Effects.Program

/-!
# Loops that are served

A state that answers operations serves a loop turn after turn, until the loop
leaves or the turns run out.
-/

namespace StormLb.Effects

variable {Op : Type} {Ans : Op → Type} {σ α ω : Type}

/-- Serve a loop for a number of turns, from a program on. -/
def serveRounds (answer : ω → (op : Op) → Ans op × ω) (body : σ → Program Op Ans (σ ⊕ α)) :
    Nat → Program Op Ans (σ ⊕ α) → ω → Option (α × ω)
  | 0, _, _ => none
  | turns + 1, program, world =>
      match program.serve answer world with
      | (.inl state, world) => serveRounds answer body turns (body state) world
      | (.inr value, world) => some (value, world)

section

variable {answer : ω → (op : Op) → Ans op × ω} {body : σ → Program Op Ans (σ ⊕ α)}
  {program : Program Op Ans (σ ⊕ α)} {world after : ω}

theorem serveRounds_again {state : σ} (again : program.serve answer world = (.inl state, after))
    (turns : Nat) :
    serveRounds answer body (turns + 1) program world =
      serveRounds answer body turns (body state) after := by
  rw [serveRounds, again]

theorem serveRounds_leave {value : α} (leaves : program.serve answer world = (.inr value, after))
    (turns : Nat) : serveRounds answer body (turns + 1) program world = some (value, after) := by
  rw [serveRounds, leaves]

end

end StormLb.Effects
