import Mathlib.Algebra.BigOperators.Ring.Finset
import StormLb.Effects.Threads

/-!
# Ledgers

A quantity of the shared world that every operation changes by a share of its
own.  Over every interleaving it is what it was at the start and the shares of
all that the threads did; where each thread's shares come to one or to nothing,
it counts the threads of the first kind.
-/

namespace StormLb.Effects

variable {ι Op : Type} {Ans : Op → Type} {σ α W M : Type}

/-- What the shares of a history come to. -/
def History.total [AddCommMonoid M] (share : Event Op Ans → M) (history : History Op Ans) : M :=
  (history.map share).sum

@[simp] theorem History.total_nil [AddCommMonoid M] (share : Event Op Ans → M) :
    History.total share [] = 0 :=
  rfl

@[simp] theorem History.total_cons [AddCommMonoid M] (share : Event Op Ans → M)
    (event : Event Op Ans) (past : History Op Ans) :
    History.total share (event :: past) = share event + History.total share past := by
  rw [History.total, List.map_cons, List.sum_cons, History.total]

namespace Threads

variable [DecidableEq ι] {system : Threads ι Op Ans σ α W}
  {allowed : Option ι → Config ι Op Ans σ α W → Prop} {start config : Config ι Op Ans σ α W}

/-- What one more event of a thread adds to the sum over threads. -/
theorem sum_total_advance [AddCommMonoid M] (share : ι → Event Op Ans → M)
    (config : Config ι Op Ans σ α W) {i : ι} {movers : Finset ι} (moves : i ∈ movers)
    (rest : Program Op Ans (σ ⊕ α)) (event : Event Op Ans) (world : W) :
    ∑ j ∈ movers, History.total (share j) ((config.advance i rest event world).histories j) =
      (∑ j ∈ movers, History.total (share j) (config.histories j)) + share i event := by
  rw [← Finset.add_sum_erase _ _ moves, ← Finset.add_sum_erase movers (fun j =>
    History.total (share j) (config.histories j)) moves, Config.advance_histories_self,
    History.total_cons]
  have others : ∑ j ∈ movers.erase i,
        History.total (share j) ((config.advance i rest event world).histories j) =
      ∑ j ∈ movers.erase i, History.total (share j) (config.histories j) := by
    refine Finset.sum_congr rfl fun j member => ?_
    rw [Config.advance_histories_of_ne config (Finset.ne_of_mem_erase member)]
  rw [others, add_comm (share i event), add_assoc, add_comm (share i event), add_assoc]

/-- The ledger: the threads that did something, and what all their shares come to. -/
theorem Reaches.ledger [AddCommMonoid M] (measure : W → M) (share : ι → Event Op Ans → M)
    {world : W} (nothing : measure world = 0)
    (served : ∀ config i op next (answer : Ans op) after,
      Reaches system allowed (system.initial world) config → config.threads i = .call op next →
      system.serves i config.world op answer = some after →
      measure after = measure config.world + share i ⟨op, answer⟩)
    (drifted : ∀ before after, system.drifts before after → measure after = measure before)
    (reached : Reaches system allowed (system.initial world) config) :
    ∃ movers : Finset ι, (∀ i, i ∈ movers ↔ config.histories i ≠ []) ∧
      measure config.world = ∑ i ∈ movers, History.total (share i) (config.histories i) := by
  induction reached with
  | start => exact ⟨∅, by simp [initial], nothing⟩
  | @step config after who before admitted stepped ih =>
      obtain ⟨movers, moved, sum⟩ := ih
      cases stepped with
      | turn looped => exact ⟨movers, moved, sum⟩
      | drift drifts => exact ⟨movers, moved, (drifted _ _ drifts).trans sum⟩
      | @call _ i op next after answer waiting answered =>
          refine ⟨insert i movers, fun j => ?_, ?_⟩
          · by_cases same : j = i
            · subst same
              simp [Config.advance_histories_self]
            · simp [Config.advance_histories_of_ne config same, same, moved]
          · have silent : ∑ j ∈ insert i movers, History.total (share j) (config.histories j) =
                ∑ j ∈ movers, History.total (share j) (config.histories j) := by
              refine Finset.sum_insert_of_eq_zero_if_notMem fun absent => ?_
              have idle : config.histories i = [] := by
                by_contra active
                exact absent ((moved i).mpr active)
              rw [idle, History.total_nil]
            rw [sum_total_advance share config (Finset.mem_insert_self i movers), silent, ← sum]
            exact served config i op next answer after before waiting answered

/-- A ledger of threads that come to one each, or to nothing. -/
theorem Reaches.counts [AddCommMonoidWithOne M] (measure : W → M) (share : ι → Event Op Ans → M)
    (counted : ι → Prop) {world : W} (nothing : measure world = 0)
    (served : ∀ config i op next (answer : Ans op) after,
      Reaches system allowed (system.initial world) config → config.threads i = .call op next →
      system.serves i config.world op answer = some after →
      measure after = measure config.world + share i ⟨op, answer⟩)
    (drifted : ∀ before after, system.drifts before after → measure after = measure before)
    (reached : Reaches system allowed (system.initial world) config)
    (idle : ∀ i, config.histories i = [] → ¬ counted i)
    (one : ∀ i, counted i → History.total (share i) (config.histories i) = 1)
    (none_ : ∀ i, ¬ counted i → History.total (share i) (config.histories i) = 0) :
    ∃ those : Finset ι, (∀ i, i ∈ those ↔ counted i) ∧
      measure config.world = (those.card : M) := by
  classical
  obtain ⟨movers, moved, sum⟩ := reached.ledger measure share nothing served drifted
  refine ⟨movers.filter counted, fun i => ?_, ?_⟩
  · rw [Finset.mem_filter, moved]
    exact ⟨And.right, fun holds => ⟨fun silent => idle i silent holds, holds⟩⟩
  · rw [sum, ← Finset.sum_boole]
    refine Finset.sum_congr rfl fun i _ => ?_
    by_cases holds : counted i
    · rw [one i holds, if_pos holds]
    · rw [none_ i holds, if_neg holds]

end Threads

end StormLb.Effects
