import Mathlib.Algebra.Order.Monoid.Unbundled.Defs
import Mathlib.Algebra.Order.Monoid.Unbundled.Basic
import Mathlib.Order.Defs.LinearOrder

/-!
# Heartbeats

A sender beats again before a gap has passed, and a beat is under way no longer
than a latency.  A receiver that found nothing under way any longer has lately
been reached, or nobody could have been yet.
-/

namespace StormLb.Heartbeat

variable {T : Type} [Add T]

/-- When the next beat is sent at the latest; the beats so far, newest first. -/
def nextBy (first gap : T) : List T → T
  | [] => first
  | beat :: _ => beat + gap

/-- Every beat was sent in time. -/
def Paced [LE T] (first gap : T) : List T → Prop
  | [] => True
  | beat :: earlier => beat ≤ nextBy first gap earlier ∧ Paced first gap earlier

/--
Before the next beat is overdue, either every beat may still be under way, or
one that cannot be was sent less than a gap and a latency ago.
-/
theorem Paced.recent [LinearOrder T] [AddRightMono T] {first gap latency now : T} {beats : List T}
    (paced : Paced first gap beats) (inTime : now ≤ nextBy first gap beats + latency) :
    ((∀ beat ∈ beats, now ≤ beat + latency) ∧ now ≤ first + latency) ∨
      ∃ beat ∈ beats, beat + latency < now ∧ now ≤ beat + gap + latency := by
  induction beats with
  | nil => exact .inl ⟨nofun, inTime⟩
  | cons beat earlier ih =>
      obtain ⟨soon, paced⟩ := paced
      rcases lt_or_ge (beat + latency) now with arrived | underWay
      · exact .inr ⟨beat, List.mem_cons_self, arrived, inTime⟩
      · have before : now ≤ nextBy first gap earlier + latency :=
          underWay.trans (add_le_add_left soon latency)
        rcases ih paced before with ⟨allUnderWay, started⟩ | ⟨last, member, found⟩
        · refine .inl ⟨fun other member => ?_, started⟩
          rcases List.mem_cons.mp member with rfl | older
          · exact underWay
          · exact allUnderWay other older
        · exact .inr ⟨last, List.mem_cons_of_mem _ member, found⟩

end StormLb.Heartbeat
