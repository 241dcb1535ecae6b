import Mathlib.Data.List.Infix

/-!
# Flags of changing members

The members of a set are replaced, rounds that began at some moment write a flag
for a member, and members are picked.  The log has the newest event first, and a
moment is the number of events before it.  What counts for a member is what was
written by rounds that began since it became one.
-/

namespace StormLb.Membership

variable {A : Type}

inductive Event (A : Type) where
  | replaced (members : List A)
  /-- A round that began at the moment writes the member's flag. -/
  | wrote (began : Nat) (member : A) (flag : Bool)
  | picked (member : Option A)
  deriving DecidableEq, Repr

/-- What the members were last replaced with. -/
def lastReplaced : List (Event A) → Option (List A)
  | [] => none
  | .replaced members :: _ => some members
  | _ :: past => lastReplaced past

variable [DecidableEq A]

/-- Since when a member has been one without a break. -/
def memberSince (a : A) : List (Event A) → Option Nat
  | [] => none
  | .replaced members :: past =>
      if a ∈ members then some ((memberSince a past).getD past.length) else none
  | _ :: past => memberSince a past

/-- The flag last written for a member by a round that began after the moment. -/
def lastWritten (a : A) (since : Nat) : List (Event A) → Option Bool
  | [] => none
  | .wrote began member flag :: past =>
      if member = a ∧ since < began then some flag else lastWritten a since past
  | _ :: past => lastWritten a since past

@[simp] theorem lastWritten_replaced (a : A) (since : Nat) (members : List A)
    (past : List (Event A)) :
    lastWritten a since (.replaced members :: past) = lastWritten a since past :=
  rfl

/-- No round writes before it began. -/
def Timed : List (Event A) → Prop
  | [] => True
  | .wrote began _ _ :: past => began ≤ past.length ∧ Timed past
  | _ :: past => Timed past

theorem memberSince_isSome_iff (a : A) (log : List (Event A)) :
    (memberSince a log).isSome = true ↔ ∃ members, lastReplaced log = some members ∧ a ∈ members := by
  induction log with
  | nil => simp [memberSince, lastReplaced]
  | cons event past ih =>
      cases event with
      | replaced members =>
          simp only [memberSince, lastReplaced]
          split
          · rename_i member
            simp [member]
          · rename_i absent
            simp [absent]
      | wrote began member flag => exact ih
      | picked member => exact ih

theorem memberSince_lt {a : A} {log : List (Event A)} {since : Nat}
    (member : memberSince a log = some since) : since < log.length := by
  induction log generalizing since with
  | nil => cases member
  | cons event past ih =>
      rw [List.length_cons]
      cases event with
      | replaced members =>
          simp only [memberSince] at member
          split at member
          · cases before : memberSince a past with
            | none =>
                rw [before] at member
                cases member
                exact Nat.lt_succ_self _
            | some earlier =>
                rw [before] at member
                cases member
                exact Nat.lt_succ_of_lt (ih before)
          · cases member
      | wrote began other flag => exact Nat.lt_succ_of_lt (ih member)
      | picked other => exact Nat.lt_succ_of_lt (ih member)

/-- Nothing counts yet for a member that is new now. -/
theorem lastWritten_of_length_le (a : A) {log : List (Event A)} {since : Nat} (timed : Timed log)
    (new : log.length ≤ since) : lastWritten a since log = none := by
  induction log with
  | nil => rfl
  | cons event past ih =>
      rw [List.length_cons] at new
      cases event with
      | replaced members => exact ih timed (by omega)
      | wrote began member flag =>
          obtain ⟨early, timed⟩ := timed
          rw [lastWritten, if_neg]
          · exact ih timed (by omega)
          · rintro ⟨_, late⟩
            omega
      | picked member => exact ih timed (by omega)

end StormLb.Membership
