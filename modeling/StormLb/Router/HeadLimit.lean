import StormLb.Router.Scene
import StormLb.Router.Steps

/-!
# The limit of a head

Of a head that never ends no more is kept than the limit and one read, whatever
is answered: the head is read on only while it is within the limit.
-/

namespace StormLb.Router

open StormLb.Effects StormLb.Text

/-- Nothing was done yet but to read the head. -/
def InHead (log : Log) : Prop :=
  ∀ event ∈ log, event.1 = .read .client 2048

theorem inHead_cons {event : Event Op Op.Ans} {past : Log} :
    InHead (event :: past) ↔ event.1 = .read .client 2048 ∧ InHead past :=
  List.forall_mem_cons

/-- The head is read on only within the limit. -/
def Frugal (op : Op) (log : Log) : Prop :=
  op = .read .client 2048 → InHead log → (received .client log).length ≤ 16 * 1024

/-- As long as it is read, the head is what was received. -/
def Kept : Serving → Log → Prop
  | .reading head, log => InHead log → received .client log = head ∧ head.length ≤ 16 * 1024
  | .splicing _, log => ¬ InHead log

abbrev KeptOn : Serving ⊕ Exit → Log → Prop :=
  LoopPost Kept fun _ _ => True

/-- After anything else, there is no limit any more. -/
theorem keeps_of_past_head {log : Log} (past : ¬ InHead log) (program : Prog (Serving ⊕ Exit)) :
    Program.Keeps Frugal KeptOn program log := by
  have lasting (event : Event Op Op.Ans) (history : Log) (past : ¬ InHead history) :
      ¬ InHead (event :: history) :=
    fun within => past (inHead_cons.mp within).2
  refine (Program.keeps_of_lasting (fun _ _ past _ within => absurd within past) lasting program
    past).weaken ?_
  intro value after past
  cases value with
  | inr exit => exact trivial
  | inl serving =>
      cases serving with
      | reading head => exact fun within => absurd within past
      | splicing splice => exact past

/-- What starts with anything but reading the head. -/
theorem keeps_of_other {log : Log} (op : Op) (other : op ≠ .read .client 2048)
    (next : op.Ans → Prog (Serving ⊕ Exit)) :
    Program.Keeps Frugal KeptOn (.call op next) log :=
  ⟨fun same => absurd same other, fun _ =>
    keeps_of_past_head (fun within => other (inHead_cons.mp within).1) _⟩

variable (front : Front)

theorem frugal_demux (tls : Bool) (head : List UInt8) (headEnd : Nat) (log : Log) :
    Program.Keeps Frugal KeptOn (front.demux tls head headEnd) log := by
  dsimp only [Front.demux]
  cases hostOf (head.take headEnd) with
  | none => exact keeps_of_other (.inc _ _) nofun _
  | some host => exact keeps_of_other (.lookup host) nofun _

theorem frugal_turn (tls : Bool) (serving : Serving) (log : Log) (kept : Kept serving log) :
    Program.Keeps Frugal KeptOn (front.turn tls serving) log := by
  by_cases within : InHead log
  · cases serving with
    | splicing splice => exact absurd within kept
    | reading head =>
        obtain ⟨same, short⟩ := kept within
        refine keeps_reading front (fun _ _ => same ▸ short) (fun _ _ => trivial)
          (fun bytes few _ => ⟨?_, few⟩) fun bytes headEnd _ => frugal_demux front tls _ headEnd _
        rw [received_cons, same]
        rfl
  · exact keeps_of_past_head within _

/-- What is kept of the client's bytes while only the head was read. -/
structure Buffered (program : Prog (Serving ⊕ Exit)) (log : Log) : Prop where
  kept : ∀ head, program = .done (.inl (.reading head)) → InHead log → head = received .client log
  limited : InHead log → (received .client log).length ≤ 16 * 1024 + 2048

theorem buffered_of_runs {tls : Bool} {program : Prog (Serving ⊕ Exit)} {log : Log}
    (run : Runs (front.turn tls) serveConn program log) (fits : log.Admitted sized) :
    Buffered program log := by
  have started : Program.Keeps Frugal KeptOn serveConn [] := fun _ => ⟨rfl, Nat.zero_le _⟩
  constructor
  · rintro head rfl within
    have kept : Kept (.reading head) log := run.keeps started (frugal_turn front tls)
    exact (kept within).1.symm
  · intro within
    have frugal := run.always started (frugal_turn front tls)
    cases log with
    | nil => exact Nat.zero_le _
    | cons event past =>
        obtain ⟨reads, before⟩ := inHead_cons.mp within
        have short := frugal event past (List.suffix_refl _) reads before
        obtain ⟨room, _⟩ := History.admitted_cons.mp fits
        obtain ⟨op, answer⟩ := event
        obtain rfl : op = .read .client 2048 := reads
        rw [received_cons, List.length_append]
        cases answer with
        | error error => exact Nat.le_add_right_of_le short
        | ok bytes => exact Nat.add_le_add short room

end StormLb.Router
