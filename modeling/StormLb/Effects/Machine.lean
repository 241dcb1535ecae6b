import Mathlib.Data.List.Basic

/-!
# Reactive machines

A machine answers each input with an output and a next state.  A machine that
agrees with another on one input, in related states, agrees with it on every
sequence of inputs that the other one admits.
-/

namespace StormLb.Effects

/-- A machine: the output and the next state, for each state and input. -/
abbrev Machine (σ ι ο : Type) : Type := σ → ι → ο × σ

namespace Machine

variable {σ τ ι ο : Type}

/-- The outputs for a sequence of inputs. -/
def outputs (machine : Machine σ ι ο) : σ → List ι → List ο
  | _, [] => []
  | state, input :: rest => (machine state input).1 :: outputs machine (machine state input).2 rest

/-- Every input is admissible in the state it finds. -/
def Admits (machine : Machine σ ι ο) (admissible : σ → ι → Prop) : σ → List ι → Prop
  | _, [] => True
  | state, input :: rest =>
      admissible state input ∧ Admits machine admissible (machine state input).2 rest

instance decidableAdmits (machine : Machine σ ι ο) (admissible : σ → ι → Prop)
    [∀ state input, Decidable (admissible state input)] :
    (state : σ) → (inputs : List ι) → Decidable (machine.Admits admissible state inputs)
  | _, [] => .isTrue trivial
  | state, input :: rest =>
      have := decidableAdmits machine admissible (machine state input).2 rest
      inferInstanceAs (Decidable (admissible state input ∧
        Admits machine admissible (machine state input).2 rest))

/-- What holds of every input is admitted from any state. -/
theorem admits_of_forall_mem (machine : Machine σ ι ο) {admissible : ι → Prop} (state : σ)
    {inputs : List ι} (all : ∀ input ∈ inputs, admissible input) :
    machine.Admits (fun _ => admissible) state inputs := by
  induction inputs generalizing state with
  | nil => trivial
  | cons input rest ih =>
      obtain ⟨first, others⟩ := List.forall_mem_cons.mp all
      exact ⟨first, ih _ others⟩

/-- The state that a sequence of inputs leads to. -/
def final (machine : Machine σ ι ο) : σ → List ι → σ
  | state, [] => state
  | state, input :: rest => final machine (machine state input).2 rest

/-- What every admissible input keeps, a sequence of them keeps. -/
theorem final_of_kept (machine : Machine σ ι ο) {admissible : σ → ι → Prop} {holds : σ → Prop}
    (kept : ∀ state input, holds state → admissible state input → holds (machine state input).2)
    {state : σ} (start : holds state) {inputs : List ι}
    (admitted : machine.Admits admissible state inputs) : holds (machine.final state inputs) := by
  induction inputs generalizing state with
  | nil => exact start
  | cons input rest ih => exact ih (kept state input start admitted.1) admitted.2

/-- What every output is where a kept property holds, all outputs of a sequence are. -/
theorem forall_mem_outputs (machine : Machine σ ι ο) {admissible : σ → ι → Prop}
    {holds : σ → Prop} {good : ο → Prop}
    (kept : ∀ state input, holds state → admissible state input →
      good (machine state input).1 ∧ holds (machine state input).2)
    {state : σ} (start : holds state) {inputs : List ι}
    (admitted : machine.Admits admissible state inputs) :
    ∀ output ∈ machine.outputs state inputs, good output := by
  induction inputs generalizing state with
  | nil => exact fun output member => absurd member List.not_mem_nil
  | cons input rest ih =>
      obtain ⟨now, next⟩ := kept state input start admitted.1
      exact List.forall_mem_cons.mpr ⟨now, ih next admitted.2⟩

/-- Related states answer an admissible input alike, and stay related. -/
def Simulates (machine : Machine σ ι ο) (other : Machine τ ι ο) (admissible : τ → ι → Prop)
    (related : σ → τ → Prop) : Prop :=
  ∀ state state' input, related state state' → admissible state' input →
    (machine state input).1 = (other state' input).1 ∧
      related (machine state input).2 (other state' input).2

/-- A simulation gives equal outputs, whatever is admitted. -/
theorem Simulates.outputs_eq {machine : Machine σ ι ο} {other : Machine τ ι ο}
    {admissible : τ → ι → Prop} {related : σ → τ → Prop}
    (simulates : machine.Simulates other admissible related) {state : σ} {state' : τ}
    (start : related state state') {inputs : List ι}
    (admitted : other.Admits admissible state' inputs) :
    machine.outputs state inputs = other.outputs state' inputs := by
  induction inputs generalizing state state' with
  | nil => rfl
  | cons input rest ih =>
      obtain ⟨output, next⟩ := simulates state state' input start admitted.1
      rw [outputs, outputs, output, ih next admitted.2]

end Machine

end StormLb.Effects
