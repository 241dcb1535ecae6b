import StormLb.Effects.Program

/-!
# Programs under a promise

What a program does when every answer is one that the environment promised.  The
rules are those of the program logic, with the answers assumed instead of
arbitrary.  When some answer is always possible and a loop's runs are bounded,
every run can be carried on to its end.
-/

namespace StormLb.Effects

/-- Which answers an environment may give, after what happened. -/
abbrev Promise (Op : Type) (Ans : Op → Type) : Type :=
  (op : Op) → Ans op → History Op Ans → Prop

section

variable {Op : Type} {Ans : Op → Type} {σ α β : Type} {admits : Promise Op Ans}

/-- Every answer of the history was promised. -/
def History.Admitted (admits : Promise Op Ans) (history : History Op Ans) : Prop :=
  ∀ event past, event :: past <:+ history → admits event.1 event.2 past

@[simp] theorem History.admitted_nil : History.Admitted admits [] := by
  intro event past suffix
  cases List.eq_nil_of_suffix_nil suffix

@[simp] theorem History.admitted_cons {event : Event Op Ans} {past : History Op Ans} :
    History.Admitted admits (event :: past) ↔
      admits event.1 event.2 past ∧ History.Admitted admits past := by
  constructor
  · intro admitted
    refine ⟨admitted event past (List.suffix_refl _), fun other earlier suffix => ?_⟩
    exact admitted other earlier (suffix.trans (List.suffix_cons _ _))
  · rintro ⟨now, before⟩ other earlier suffix
    rcases List.suffix_cons_iff.mp suffix with same | older
    · obtain ⟨rfl, rfl⟩ := List.cons.inj same
      exact now
    · exact before other earlier older

/-- Both promises. -/
def Promise.and (first second : Promise Op Ans) : Promise Op Ans :=
  fun op answer history => first op answer history ∧ second op answer history

theorem History.admitted_and {first second : Promise Op Ans} {history : History Op Ans} :
    History.Admitted (first.and second) history ↔
      History.Admitted first history ∧ History.Admitted second history := by
  constructor
  · intro both
    exact ⟨fun event past suffix => (both event past suffix).1,
      fun event past suffix => (both event past suffix).2⟩
  · rintro ⟨one, other⟩ event past suffix
    exact ⟨one event past suffix, other event past suffix⟩

/-- What was promised of a history was promised of everything up to an earlier moment. -/
theorem History.Admitted.earlier {past history : History Op Ans}
    (admitted : History.Admitted admits history) (suffix : past <:+ history) :
    History.Admitted admits past :=
  fun event before inner => admitted event before (inner.trans suffix)

namespace Program

/-- As long as the answers are promised ones, the program ends with such a value and history. -/
def Under (admits : Promise Op Ans) (post : α → History Op Ans → Prop) :
    Program Op Ans α → History Op Ans → Prop
  | .done value, history => post value history
  | .call op next, history =>
      ∀ answer, admits op answer history → Under admits post (next answer) (⟨op, answer⟩ :: history)

/-- The rule of sequencing. -/
theorem under_bind {post : β → History Op Ans → Prop} (program : Program Op Ans α)
    (rest : α → Program Op Ans β) (history : History Op Ans) :
    Under admits post (program.bind rest) history ↔
      Under admits (fun value => Under admits post (rest value)) program history := by
  induction program generalizing history with
  | done value => exact Iff.rfl
  | call op next ih => exact forall_congr' fun answer => forall_congr' fun _ => ih answer _

/-- The rule of consequence. -/
theorem Under.weaken {post after : α → History Op Ans → Prop}
    (weaker : ∀ value history, post value history → after value history)
    {program : Program Op Ans α} {history : History Op Ans}
    (under : Under admits post program history) : Under admits after program history := by
  induction program generalizing history with
  | done value => exact weaker value history under
  | call op next ih => exact fun answer promised => ih answer (under answer promised)

/-- The rule of sequencing, with what holds in between. -/
theorem Under.bind {between : α → History Op Ans → Prop} {post : β → History Op Ans → Prop}
    {program : Program Op Ans α} {rest : α → Program Op Ans β} {history : History Op Ans}
    (first : Under admits between program history)
    (second : ∀ value history, between value history → Under admits post (rest value) history) :
    Under admits post (program.bind rest) history :=
  (under_bind _ _ _).mpr (first.weaken second)

/-- What lasts whatever happens, holds at the end of every program. -/
theorem under_of_lasting {holds : History Op Ans → Prop}
    (lasting : ∀ event history, holds history → holds (event :: history))
    (program : Program Op Ans α) {history : History Op Ans} (now : holds history) :
    Under admits (fun _ after => holds after) program history := by
  induction program generalizing history with
  | done value => exact now
  | call op next ih => exact fun answer _ => ih answer (lasting _ _ now)

end Program

/-! ## Loops -/

section Loop

variable {body : σ → Program Op Ans (σ ⊕ α)} {first : Program Op Ans (σ ⊕ α)}
  {invariant : σ → History Op Ans → Prop} {result : α → History Op Ans → Prop}

/-- The loop rule under a promise. -/
theorem Runs.under
    (established : Program.Under admits (LoopPost invariant result) first [])
    (kept : ∀ state history, invariant state history →
      Program.Under admits (LoopPost invariant result) (body state) history)
    {program : Program Op Ans (σ ⊕ α)} {history : History Op Ans}
    (run : Runs body first program history) (admitted : history.Admitted admits) :
    Program.Under admits (LoopPost invariant result) program history := by
  induction run with
  | start => exact established
  | call answer before ih =>
      obtain ⟨promised, earlier⟩ := History.admitted_cons.mp admitted
      exact ih earlier answer promised
  | turn before ih => exact kept _ _ (ih admitted)

/-- What an oracle that keeps the promise plays is admitted. -/
theorem play_admitted (oracle : History Op Ans → (op : Op) → Ans op)
    (promised : ∀ op history, History.Admitted admits history →
      admits op (oracle history op) history)
    (steps : Nat) (program : Program Op Ans (σ ⊕ α)) {history : History Op Ans}
    (admitted : history.Admitted admits) :
    (play body oracle steps program history).2.Admitted admits := by
  induction steps generalizing program history with
  | zero => exact admitted
  | succ steps ih =>
      cases program with
      | call op next =>
          exact ih _ (History.admitted_cons.mpr ⟨promised op history admitted, admitted⟩)
      | done value =>
          cases value with
          | inl state => exact ih _ admitted
          | inr value => exact admitted

/-- Within one turn, a run can be carried on to the turn's end. -/
theorem Runs.ends_turn
    (answers : ∀ op history, History.Admitted admits history → ∃ answer, admits op answer history)
    {program : Program Op Ans (σ ⊕ α)} {history : History Op Ans}
    (run : Runs body first program history) (admitted : history.Admitted admits) :
    ∃ value after, Runs body first (.done value) after ∧ after.Admitted admits ∧
      history <:+ after := by
  induction program generalizing history with
  | done value => exact ⟨value, history, run, admitted, List.suffix_refl _⟩
  | call op next ih =>
      obtain ⟨answer, promised⟩ := answers op history admitted
      obtain ⟨value, after, ended, admitted', suffix⟩ := ih answer (run.call answer)
        (History.admitted_cons.mpr ⟨promised, admitted⟩)
      exact ⟨value, after, ended, admitted', (List.suffix_cons _ _).trans suffix⟩

/--
When some answer is always possible, every turn asks something or leaves the
loop, and the history stays bounded between the turns, a run can be carried on
to the end of the loop.
-/
theorem Runs.completes {bound : Nat}
    (answers : ∀ op history, History.Admitted admits history → ∃ answer, admits op answer history)
    (busy : ∀ state, (∃ op next, body state = .call op next) ∨ ∃ value, body state = .done (.inr value))
    (bounded : ∀ state history, Runs body first (.done (.inl state)) history →
      history.Admitted admits → history.length ≤ bound)
    {program : Program Op Ans (σ ⊕ α)} {history : History Op Ans}
    (run : Runs body first program history) (admitted : history.Admitted admits) :
    ∃ value after, Runs body first (.done (.inr value)) after ∧ after.Admitted admits ∧
      history <:+ after := by
  -- Turn after turn, the room that the bound leaves gets smaller.
  have turns : ∀ (room : Nat) (state : σ) (history : History Op Ans),
      Runs body first (.done (.inl state)) history → history.Admitted admits →
        bound < history.length + room →
          ∃ value after, Runs body first (.done (.inr value)) after ∧ after.Admitted admits ∧
            history <:+ after := by
    intro room
    induction room with
    | zero =>
        intro state history run admitted full
        exact absurd (bounded state history run admitted) (by omega)
    | succ room ih =>
        intro state history run admitted left
        have turned := run.turn
        rcases busy state with ⟨op, next, asks⟩ | ⟨value, leaves⟩
        · rw [asks] at turned
          obtain ⟨answer, promised⟩ := answers op history admitted
          obtain ⟨value, middle, ended, admitted', suffix⟩ := (turned.call answer).ends_turn answers
            (History.admitted_cons.mpr ⟨promised, admitted⟩)
          have older := (List.suffix_cons _ _).trans suffix
          have grown := suffix.length_le
          rw [List.length_cons] at grown
          cases value with
          | inr value => exact ⟨value, middle, ended, admitted', older⟩
          | inl state =>
              obtain ⟨value, after, finished, admitted'', suffix'⟩ :=
                ih state middle ended admitted' (by omega)
              exact ⟨value, after, finished, admitted'', older.trans suffix'⟩
        · rw [leaves] at turned
          exact ⟨value, history, turned, admitted, List.suffix_refl _⟩
  obtain ⟨value, middle, ended, admitted', suffix⟩ := run.ends_turn answers admitted
  cases value with
  | inr value => exact ⟨value, middle, ended, admitted', suffix⟩
  | inl state =>
      obtain ⟨value, after, finished, admitted'', suffix'⟩ :=
        turns (bound + 1) state middle ended admitted' (by omega)
      exact ⟨value, after, finished, admitted'', suffix.trans suffix'⟩

end Loop

end

end StormLb.Effects
