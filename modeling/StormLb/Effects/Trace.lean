import Mathlib.Data.List.Basic
import StormLb.Effects.Program

/-!
# Traces

What a history shows through a view of its events, oldest first, and traces in
which two things take turns.
-/

namespace StormLb.Effects

section

variable {Op : Type} {Ans : Op → Type} {α β : Type}

/-- What a history shows through a view of single events, oldest first. -/
def History.trace (view : Event Op Ans → Option β) : History Op Ans → List β
  | [] => []
  | event :: past => trace view past ++ (view event).toList

@[simp] theorem History.trace_nil (view : Event Op Ans → Option β) :
    History.trace view ([] : History Op Ans) = [] :=
  rfl

@[simp] theorem History.trace_cons (view : Event Op Ans → Option β) (event : Event Op Ans)
    (past : History Op Ans) :
    History.trace view (event :: past) = History.trace view past ++ (view event).toList :=
  rfl

/-! ## Taking turns -/

/-- The first, the second, the first, …, `n` in all. -/
def alternating (first second : α) (n : Nat) : List α :=
  (List.range n).map fun i => if i % 2 = 0 then first else second

theorem alternating_succ (first second : α) (n : Nat) :
    alternating first second (n + 1) =
      alternating first second n ++ [if n % 2 = 0 then first else second] := by
  simp [alternating, List.range_succ]

/-- A trace of turns; `taken` after a first that no second followed yet. -/
def Alternates (first second : α) (taken : Bool) (trace : List α) : Prop :=
  ∃ n, trace = alternating first second n ∧ (taken = true ↔ n % 2 = 1)

theorem Alternates.nil (first second : α) : Alternates first second false [] :=
  ⟨0, rfl, by simp⟩

/-- The one whose turn it is. -/
theorem Alternates.turn {first second : α} {taken : Bool} {trace : List α}
    (alternates : Alternates first second taken trace) :
    Alternates first second (!taken) (trace ++ [if taken then second else first]) := by
  obtain ⟨n, rfl, parity⟩ := alternates
  refine ⟨n + 1, ?_, ?_⟩
  · rw [alternating_succ]
    cases taken with
    | false =>
        have even : n % 2 = 0 := by
          have := parity.not.mp (by simp)
          omega
        rw [if_pos even, if_neg Bool.false_ne_true]
    | true =>
        have odd : ¬ n % 2 = 0 := by
          have := parity.mp rfl
          omega
        rw [if_neg odd, if_pos rfl]
  · rw [Bool.not_eq_true', ← Bool.not_eq_true, parity]
    omega

/-- The last turn was the first one's exactly when it is taken. -/
theorem Alternates.getLast? {first second : α} {taken : Bool} {trace : List α}
    (apart : second ≠ first) (alternates : Alternates first second taken trace) :
    trace.getLast? = some first ↔ taken = true := by
  obtain ⟨n, rfl, parity⟩ := alternates
  rw [parity]
  cases n with
  | zero => simp [alternating]
  | succ n =>
      rw [alternating_succ, List.getLast?_concat]
      rcases Nat.mod_two_eq_zero_or_one n with even | odd
      · simp only [if_pos even, true_iff]
        omega
      · rw [if_neg (by omega)]
        constructor
        · exact fun same => absurd (Option.some.inj same) apart
        · omega

end

end StormLb.Effects
