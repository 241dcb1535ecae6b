import StormLb.Balancer.Counts
import StormLb.Pool.Turns

/-!
# Whom the balancer dials

A connection is dialled at most once, to a member that was healthy in the pool
of its listener when it was picked.  One that is refused was picked for when no
member that the scan comes to was healthy.  Copying begins only after a dial that
succeeded.
-/

namespace StormLb.Balancer

open StormLb.Effects

/-- A dial is the first, and to what was picked; the copying is of what was dialled. -/
def Dialled (op : Op) (log : Log) : Prop :=
  match op with
  | .connect addr => (∃ be, ⟨.pick, some be⟩ ∈ log ∧ be.addr = addr) ∧
      ∀ addr failed, ⟨.connect addr, failed⟩ ∉ log
  | .copyBidirectional => ∃ addr, ⟨.connect addr, none⟩ ∈ log
  | _ => True

section

variable {f64 : Metrics.F64} {ι κ : Type} [DecidableEq ι] [DecidableEq κ]

/-- It held at a moment of a run that led here. -/
def Sometime (listener : ι → Listener κ) (world : World f64 κ)
    (config : Config ι Op Op.Ans Empty Unit (World f64 κ))
    (held : Config ι Op Op.Ans Empty Unit (World f64 κ) → Prop) : Prop :=
  ∃ before, (connections f64 listener).Reaches Threads.anySchedule
      ((connections f64 listener).initial world) before ∧
    (connections f64 listener).Reaches Threads.anySchedule before config ∧ held before

variable {listener : ι → Listener κ} {world : World f64 κ}
  {config after : Config ι Op Op.Ans Empty Unit (World f64 κ)}

theorem Sometime.step {held : Config ι Op Op.Ans Empty Unit (World f64 κ) → Prop} {who : Option ι}
    (sometime : Sometime listener world config held)
    (stepped : (connections f64 listener).Step who config after) :
    Sometime listener world after held := by
  obtain ⟨before, reached, leads, holds⟩ := sometime
  exact ⟨before, reached, leads.step trivial stepped, holds⟩

theorem Sometime.weaken {held holds : Config ι Op Op.Ans Empty Unit (World f64 κ) → Prop}
    (weaker : ∀ before, held before → holds before) (sometime : Sometime listener world config held) :
    Sometime listener world config holds := by
  obtain ⟨before, reached, leads, held⟩ := sometime
  exact ⟨before, reached, leads, weaker before held⟩

end

end StormLb.Balancer
