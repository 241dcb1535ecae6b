import Mathlib.Data.Fintype.Basic
import Mathlib.Data.Set.Finite.Lemmas

/-!
# Contests of rank

Some nodes hold an office.  A node that hears a greater rank than its own gives
the office up; nobody takes it.  When what is heard are only the ranks of the
first holders, the greatest of them never gives up, and once each holder was
heard by every other, it holds alone.
-/

namespace StormLb.Contest

variable {ι R : Type} [LinearOrder R]

/-- Something reaches a node: a rank, or nothing that counts. -/
structure Hearing (ι R : Type) where
  node : ι
  rank : Option R

/-- The holders left after one hearing. -/
def hear (rank : ι → R) (holders : Set ι) (hearing : Hearing ι R) : Set ι :=
  {node | node ∈ holders ∧ ∀ heard, hearing.rank = some heard → hearing.node = node →
    ¬ rank node < heard}

/-- The holders left after a sequence of hearings. -/
def hearAll (rank : ι → R) (holders : Set ι) (hearings : List (Hearing ι R)) : Set ι :=
  hearings.foldl (hear rank) holders

theorem mem_hearAll_iff (rank : ι → R) (holders : Set ι) (hearings : List (Hearing ι R))
    (node : ι) :
    node ∈ hearAll rank holders hearings ↔
      node ∈ holders ∧ ∀ hearing ∈ hearings, ∀ heard, hearing.rank = some heard →
        hearing.node = node → ¬ rank node < heard := by
  induction hearings generalizing holders with
  | nil => simp [hearAll]
  | cons hearing rest ih =>
      have unfolded := ih (hear rank holders hearing)
      rw [show hearAll rank holders (hearing :: rest) =
        hearAll rank (hear rank holders hearing) rest from rfl, unfolded]
      simp only [hear, Set.mem_ofPred_eq, List.forall_mem_cons, and_assoc]

/-- The greatest of the holders: every other holder ranks at most as high. -/
def IsGreatestHolder (rank : ι → R) (holders : Set ι) (node : ι) : Prop :=
  node ∈ holders ∧ ∀ other ∈ holders, rank other ≤ rank node

theorem exists_greatestHolder [Fintype ι] (rank : ι → R) {holders : Set ι}
    (nonempty : holders.Nonempty) : ∃ node, IsGreatestHolder rank holders node := by
  obtain ⟨node, holds, greatest⟩ :=
    Set.exists_max_image holders rank (Set.toFinite holders) nonempty
  exact ⟨node, holds, greatest⟩

section

variable {rank : ι → R} {holders : Set ι} {hearings : List (Hearing ι R)} {greatest : ι}

/-- Only ranks of first holders are heard. -/
def HoldersHeard (rank : ι → R) (holders : Set ι) (hearings : List (Hearing ι R)) : Prop :=
  ∀ hearing ∈ hearings, ∀ heard, hearing.rank = some heard →
    ∃ holder ∈ holders, heard = rank holder

/-- The greatest holder holds throughout. -/
theorem greatest_mem_hearAll (isGreatest : IsGreatestHolder rank holders greatest)
    (heardHolders : HoldersHeard rank holders hearings) :
    greatest ∈ hearAll rank holders hearings := by
  rw [mem_hearAll_iff]
  refine ⟨isGreatest.1, fun hearing member heard same _ => ?_⟩
  obtain ⟨holder, held, rfl⟩ := heardHolders hearing member heard same
  exact not_lt.mpr (isGreatest.2 holder held)

/-- Once every other node heard the greatest holder, it holds alone. -/
theorem hearAll_eq_singleton (injective : Function.Injective rank)
    (isGreatest : IsGreatestHolder rank holders greatest)
    (heardHolders : HoldersHeard rank holders hearings)
    (heardByAll : ∀ node ≠ greatest, ∃ hearing ∈ hearings,
      hearing.node = node ∧ hearing.rank = some (rank greatest)) :
    hearAll rank holders hearings = {greatest} := by
  ext node
  constructor
  · intro stays
    by_contra other
    obtain ⟨held, never⟩ := (mem_hearAll_iff rank holders hearings node).mp stays
    obtain ⟨hearing, member, reached, heard⟩ := heardByAll node other
    have below : rank node < rank greatest :=
      lt_of_le_of_ne (isGreatest.2 node held) fun same => other (injective same)
    exact never hearing member _ heard reached below
  · rintro rfl
    exact greatest_mem_hearAll isGreatest heardHolders

end

end StormLb.Contest
