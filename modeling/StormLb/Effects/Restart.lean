import StormLb.Effects.Program

/-!
# Loops that start over

A loop that is begun again whenever it leaves.  What its beginning establishes
after any history, and its body keeps, holds over all its lives.
-/

namespace StormLb.Effects

variable {Op : Type} {Ans : Op → Type} {σ α β : Type}

/-- Go round, or begin again once the loop has left. -/
def again (program : Program Op Ans (σ ⊕ α)) : Program Op Ans (Option σ ⊕ β) :=
  program.bind fun
    | .inl state => .done (.inl (some state))
    | .inr _ => .done (.inl none)

/-- The loop with this beginning and this body, over and over. -/
def restart (first : Program Op Ans (σ ⊕ α)) (body : σ → Program Op Ans (σ ⊕ α)) :
    Option σ → Program Op Ans (Option σ ⊕ β)
  | none => again first
  | some state => again (body state)

/-- The invariant of the loop, while it is inside. -/
def Within (invariant : σ → History Op Ans → Prop) : Option σ → History Op Ans → Prop
  | none, _ => True
  | some state, history => invariant state history

section

variable {law : Op → History Op Ans → Prop} {invariant : σ → History Op Ans → Prop}
  {result : β → History Op Ans → Prop} {first : Program Op Ans (σ ⊕ α)}
  {body : σ → Program Op Ans (σ ⊕ α)}

theorem keeps_again {program : Program Op Ans (σ ⊕ α)} {history : History Op Ans}
    (keeps : Program.Keeps law (LoopPost invariant fun _ _ => True) program history) :
    Program.Keeps law (LoopPost (Within invariant) result) (again program) history := by
  refine keeps.bind fun ended after holds => ?_
  cases ended with
  | inl state => exact holds
  | inr value => exact trivial

/-- The rule of loops that start over: the beginning may follow any history. -/
theorem keeps_restart
    (established : ∀ history, Program.Keeps law (LoopPost invariant fun _ _ => True) first history)
    (kept : ∀ state history, invariant state history →
      Program.Keeps law (LoopPost invariant fun _ _ => True) (body state) history)
    (state : Option σ) (history : History Op Ans) (within : Within invariant state history) :
    Program.Keeps law (LoopPost (Within invariant) result) (restart first body state) history := by
  cases state with
  | none => exact keeps_again (established history)
  | some state => exact keeps_again (kept state history within)

/-- A run of it: what it does obeys the law, and what it stands at keeps to it. -/
theorem Runs.restarted
    (established : ∀ history, Program.Keeps law (LoopPost invariant fun _ _ => True) first history)
    (kept : ∀ state history, invariant state history →
      Program.Keeps law (LoopPost invariant fun _ _ => True) (body state) history)
    {program : Program Op Ans (Option σ ⊕ β)} {history : History Op Ans}
    (run : Runs (restart first body) (restart first body none) program history) :
    Program.Keeps law (LoopPost (Within invariant) fun _ _ => True) program history ∧
      History.Always law history := by
  have around : ∀ (state : Option σ) (history : History Op Ans), Within invariant state history →
      Program.Keeps law (LoopPost (Within invariant) fun (_ : β) _ => True)
        (restart first body state) history := keeps_restart established kept
  constructor
  · exact run.keeps (around none [] trivial) around
  · exact run.always (around none [] trivial) around

end

end StormLb.Effects
