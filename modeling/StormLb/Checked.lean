import Mathlib.Algebra.Group.Nat.Defs

/-!
# Checked computations

Arithmetic that notices when a result does not fit, indices and slices that
notice when they reach out of range, and loops that notice when they run out of
turns.  A computation that comes through without a fault is one that neither
wraps nor panics nor goes round for ever.
-/

namespace StormLb.Checked

inductive Fault where
  | overflow
  | outOfRange
  /-- A loop was given too few turns. -/
  | endless
  deriving DecidableEq, Repr

section

variable {α β : Type}

@[simp] theorem ok_bind (value : α) (rest : α → Except Fault β) :
    (Except.ok value >>= rest) = rest value :=
  rfl

@[simp] theorem pure_eq (value : α) : (pure value : Except Fault α) = .ok value :=
  rfl

end

/-! ## Arithmetic -/

def addU32 (a b : UInt32) : Except Fault UInt32 :=
  if a.toNat + b.toNat < 2 ^ 32 then .ok (a + b) else .error .overflow

def subU32 (a b : UInt32) : Except Fault UInt32 :=
  if b.toNat ≤ a.toNat then .ok (a - b) else .error .overflow

def mulU32 (a b : UInt32) : Except Fault UInt32 :=
  if a.toNat * b.toNat < 2 ^ 32 then .ok (a * b) else .error .overflow

def mulU64 (a b : UInt64) : Except Fault UInt64 :=
  if a.toNat * b.toNat < 2 ^ 64 then .ok (a * b) else .error .overflow

/-- A conversion that loses nothing. -/
def narrowU16 (a : UInt64) : Except Fault UInt16 :=
  if a.toNat < 2 ^ 16 then .ok a.toUInt16 else .error .overflow

/-! ## Indices and slices -/

section

variable {α : Type}

/-- `xs[i]` -/
def index (xs : List α) (i : Nat) : Except Fault α :=
  match xs[i]? with
  | some x => .ok x
  | none => .error .outOfRange

/-- `&xs[low..high]` -/
def slice (xs : List α) (low high : Nat) : Except Fault (List α) :=
  if low ≤ high ∧ high ≤ xs.length then .ok ((xs.take high).drop low) else .error .outOfRange

/-- `&xs[low..]` -/
def sliceFrom (xs : List α) (low : Nat) : Except Fault (List α) :=
  if low ≤ xs.length then .ok (xs.drop low) else .error .outOfRange

theorem index_ok {xs : List α} {i : Nat} (inside : i < xs.length) : index xs i = .ok xs[i] := by
  rw [index, List.getElem?_eq_getElem inside]

@[simp] theorem index_cons_zero (x : α) (xs : List α) : index (x :: xs) 0 = .ok x :=
  rfl

@[simp] theorem index_cons_succ (x : α) (xs : List α) (i : Nat) :
    index (x :: xs) (i + 1) = index xs i :=
  rfl

/-- Whatever stands behind `front` is found behind it. -/
theorem index_append (front xs : List α) (i : Nat) :
    index (front ++ xs) (front.length + i) = index xs i := by
  rw [index, index, List.getElem?_append_right (Nat.le_add_right _ _), Nat.add_sub_cancel_left]

theorem slice_ok {xs : List α} {low high : Nat} (ordered : low ≤ high) (inside : high ≤ xs.length) :
    slice xs low high = .ok ((xs.take high).drop low) :=
  if_pos ⟨ordered, inside⟩

theorem sliceFrom_ok {xs : List α} {low : Nat} (inside : low ≤ xs.length) :
    sliceFrom xs low = .ok (xs.drop low) :=
  if_pos inside

end

/-! ## Loops -/

section

variable {σ α : Type}

/-- A fold whose every step goes well goes well. -/
theorem foldlM_ok {step : σ → α → Except Fault σ} (fine : ∀ state x, ∃ next, step state x = .ok next)
    (xs : List α) (state : σ) : ∃ last, xs.foldlM step state = .ok last := by
  induction xs generalizing state with
  | nil => exact ⟨state, rfl⟩
  | cons x rest ih =>
      obtain ⟨next, stepped⟩ := fine state x
      rw [List.foldlM_cons, stepped]
      exact ih next

/-- A search whose every look goes well goes well. -/
theorem findSomeM_ok {look : α → Except Fault (Option σ)} (fine : ∀ x, ∃ found, look x = .ok found)
    (xs : List α) : ∃ found, xs.findSomeM? look = .ok found := by
  induction xs with
  | nil => exact ⟨none, rfl⟩
  | cons x rest ih =>
      obtain ⟨found, looked⟩ := fine x
      rw [List.findSomeM?, looked]
      cases found with
      | none => exact ih
      | some value => exact ⟨some value, rfl⟩

/-- A loop whose body goes round again with `Sum.inl` or leaves it with `Sum.inr`. -/
def rounds (body : σ → Except Fault (σ ⊕ α)) : Nat → σ → Except Fault α
  | 0, _ => .error .endless
  | turns + 1, state =>
      match body state with
      | .error fault => .error fault
      | .ok (.inl state) => rounds body turns state
      | .ok (.inr value) => .ok value

theorem rounds_again {body : σ → Except Fault (σ ⊕ α)} {state next : σ}
    (again : body state = .ok (.inl next)) (turns : Nat) :
    rounds body (turns + 1) state = rounds body turns next := by
  rw [rounds, again]

theorem rounds_leave {body : σ → Except Fault (σ ⊕ α)} {state : σ} {value : α}
    (leaves : body state = .ok (.inr value)) (turns : Nat) :
    rounds body (turns + 1) state = .ok value := by
  rw [rounds, leaves]

/-- A loop in which every turn goes well and comes nearer to the end ends well. -/
theorem rounds_ok {body : σ → Except Fault (σ ⊕ α)} {measure : σ → Nat}
    (nearer : ∀ state, (∃ next, body state = .ok (.inl next) ∧ measure next < measure state) ∨
      ∃ value, body state = .ok (.inr value))
    {turns : Nat} {state : σ} (enough : measure state < turns) :
    ∃ value, rounds body turns state = .ok value := by
  induction turns generalizing state with
  | zero => exact absurd enough (Nat.not_lt_zero _)
  | succ turns ih =>
      obtain ⟨next, again, less⟩ | ⟨value, leaves⟩ := nearer state
      · rw [rounds_again again]
        exact ih (by omega)
      · exact ⟨value, rounds_leave leaves turns⟩

end

end StormLb.Checked
