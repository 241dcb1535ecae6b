import Mathlib.Data.List.Infix

/-!
# Programs over a signature of operations

A program is a tree: it performs an operation, and continues according to the
answer.  A loop is a program body that ends either by going round again with a
new loop state or by leaving with a result.  A run of a loop records what was
performed and answered in a history, newest event first, and every answer is
possible in a run, so a law proved of all runs holds in every environment.
-/

namespace StormLb.Effects

/-- A program performing operations `Op`, each answered in `Ans op`. -/
inductive Program (Op : Type) (Ans : Op → Type) (α : Type) where
  | done (value : α)
  | call (op : Op) (next : Ans op → Program Op Ans α)

/-- An operation together with the answer it got. -/
abbrev Event (Op : Type) (Ans : Op → Type) : Type := (op : Op) × Ans op

/-- What happened so far, the newest event first. -/
abbrev History (Op : Type) (Ans : Op → Type) : Type := List (Event Op Ans)

section

variable {Op : Type} {Ans : Op → Type} {σ α β : Type}

namespace Program

/-- Sequencing: the second program starts from the value the first ends with. -/
def bind (program : Program Op Ans α) (rest : α → Program Op Ans β) : Program Op Ans β :=
  match program with
  | .done value => rest value
  | .call op next => .call op fun answer => (next answer).bind rest

/-- Perform one operation and return its answer. -/
def perform (op : Op) : Program Op Ans (Ans op) :=
  .call op .done

instance : Monad (Program Op Ans) where
  pure := .done
  bind := Program.bind

@[simp] theorem pure_eq (value : α) : (pure value : Program Op Ans α) = .done value :=
  rfl

@[simp] theorem bind_eq (program : Program Op Ans α) (rest : α → Program Op Ans β) :
    (program >>= rest) = program.bind rest :=
  rfl

@[simp] theorem done_bind (value : α) (rest : α → Program Op Ans β) :
    (Program.done value).bind rest = rest value :=
  rfl

@[simp] theorem call_bind (op : Op) (next : Ans op → Program Op Ans α)
    (rest : α → Program Op Ans β) :
    (Program.call op next).bind rest = .call op fun answer => (next answer).bind rest :=
  rfl

end Program

/-! ## Laws on histories -/

namespace History

/-- Every operation of the history obeyed the law, given what came before it. -/
def Always (law : Op → History Op Ans → Prop) (history : History Op Ans) : Prop :=
  ∀ event past, event :: past <:+ history → law event.1 past

@[simp] theorem always_nil (law : Op → History Op Ans → Prop) : Always law [] := by
  intro event past suffix
  cases List.eq_nil_of_suffix_nil suffix

@[simp] theorem always_cons (law : Op → History Op Ans → Prop)
    (event : Event Op Ans) (past : History Op Ans) :
    Always law (event :: past) ↔ law event.1 past ∧ Always law past := by
  constructor
  · intro always
    refine ⟨always event past (List.suffix_refl _), fun other earlier suffix => ?_⟩
    exact always other earlier (suffix.trans (List.suffix_cons _ _))
  · rintro ⟨now, before⟩ other earlier suffix
    rcases List.suffix_cons_iff.mp suffix with same | older
    · obtain ⟨rfl, rfl⟩ := List.cons.inj same
      exact now
    · exact before other earlier older

/-- A law that held of a history held of everything up to an earlier moment. -/
theorem Always.earlier {law : Op → History Op Ans → Prop} {past history : History Op Ans}
    (always : Always law history) (suffix : past <:+ history) : Always law past :=
  fun event before inner => always event before (inner.trans suffix)

end History

/-! ## The program logic -/

namespace Program

/--
Whatever is answered, the program performs each operation lawfully and ends with
a value and a history that satisfy the postcondition.
-/
def Keeps (law : Op → History Op Ans → Prop) (post : α → History Op Ans → Prop) :
    Program Op Ans α → History Op Ans → Prop
  | .done value, history => post value history
  | .call op next, history =>
      law op history ∧ ∀ answer, Keeps law post (next answer) (⟨op, answer⟩ :: history)

variable {law : Op → History Op Ans → Prop}

@[simp] theorem keeps_done {post : α → History Op Ans → Prop} (value : α)
    (history : History Op Ans) :
    Keeps law post (.done value) history ↔ post value history :=
  Iff.rfl

@[simp] theorem keeps_call {post : α → History Op Ans → Prop} (op : Op)
    (next : Ans op → Program Op Ans α) (history : History Op Ans) :
    Keeps law post (.call op next) history ↔
      law op history ∧ ∀ answer, Keeps law post (next answer) (⟨op, answer⟩ :: history) :=
  Iff.rfl

/-- The rule of sequencing. -/
theorem keeps_bind {post : β → History Op Ans → Prop} (program : Program Op Ans α)
    (rest : α → Program Op Ans β) (history : History Op Ans) :
    Keeps law post (program.bind rest) history ↔
      Keeps law (fun value => Keeps law post (rest value)) program history := by
  induction program generalizing history with
  | done value => exact Iff.rfl
  | call op next ih =>
      simp only [call_bind, keeps_call]
      exact and_congr_right fun _ => forall_congr' fun answer => ih answer _

/-- The rule of consequence. -/
theorem Keeps.weaken {post after : α → History Op Ans → Prop}
    (weaker : ∀ value history, post value history → after value history)
    {program : Program Op Ans α} {history : History Op Ans}
    (keeps : Keeps law post program history) : Keeps law after program history := by
  induction program generalizing history with
  | done value => exact weaker value history keeps
  | call op next ih => exact ⟨keeps.1, fun answer => ih answer (keeps.2 answer)⟩

/-- What obeys a law obeys a weaker one. -/
theorem Keeps.relax {other : Op → History Op Ans → Prop} {post : α → History Op Ans → Prop}
    (weaker : ∀ op history, law op history → other op history)
    {program : Program Op Ans α} {history : History Op Ans}
    (keeps : Keeps law post program history) : Keeps other post program history := by
  induction program generalizing history with
  | done value => exact keeps
  | call op next ih => exact ⟨weaker op history keeps.1, fun answer => ih answer (keeps.2 answer)⟩

/-- A program that also obeys another law, whatever that says of its end. -/
theorem Keeps.also {other : Op → History Op Ans → Prop} {post after : α → History Op Ans → Prop}
    {program : Program Op Ans α} {history : History Op Ans}
    (first : Keeps law post program history) (second : Keeps other after program history) :
    Keeps (fun op past => law op past ∧ other op past) post program history := by
  induction program generalizing history with
  | done value => exact first
  | call op next ih =>
      exact ⟨⟨first.1, second.1⟩, fun answer => ih answer (first.2 answer) (second.2 answer)⟩

/-- Without a law: whatever is answered, the program ends with such a value and history. -/
abbrev Yields (post : α → History Op Ans → Prop) :
    Program Op Ans α → History Op Ans → Prop :=
  Keeps (fun _ _ => True) post

/-- Every program ends. -/
theorem yields_of_forall {post : α → History Op Ans → Prop}
    (always : ∀ value history, post value history) (program : Program Op Ans α)
    (history : History Op Ans) : Yields post program history := by
  induction program generalizing history with
  | done value => exact always value history
  | call op next ih => exact ⟨trivial, fun answer => ih answer _⟩

/-- From where a lasting fact makes everything lawful, everything is. -/
theorem keeps_of_lasting {holds : History Op Ans → Prop}
    (lawful : ∀ op history, holds history → law op history)
    (lasting : ∀ event history, holds history → holds (event :: history))
    (program : Program Op Ans α) {history : History Op Ans} (now : holds history) :
    Keeps law (fun _ after => holds after) program history := by
  induction program generalizing history with
  | done value => exact now
  | call op next ih => exact ⟨lawful op history now, fun answer => ih answer (lasting _ _ now)⟩

/-- A program only adds to the history. -/
theorem Keeps.grows {post : α → History Op Ans → Prop} {program : Program Op Ans α}
    {history : History Op Ans} (keeps : Keeps law post program history) :
    Keeps law (fun value after => post value after ∧ history <:+ after) program history := by
  induction program generalizing history with
  | done value => exact ⟨keeps, List.suffix_refl _⟩
  | call op next ih =>
      refine ⟨keeps.1, fun answer => (ih answer (keeps.2 answer)).weaken ?_⟩
      rintro value after ⟨holds, suffix⟩
      exact ⟨holds, (List.suffix_cons _ _).trans suffix⟩

/-- The rule of sequencing, with what holds in between. -/
theorem Keeps.bind {between : α → History Op Ans → Prop} {post : β → History Op Ans → Prop}
    {program : Program Op Ans α} {rest : α → Program Op Ans β} {history : History Op Ans}
    (first : Keeps law between program history)
    (second : ∀ value history, between value history → Keeps law post (rest value) history) :
    Keeps law post (program.bind rest) history :=
  (keeps_bind _ _ _).mpr (first.weaken second)

/-- Run a program on a state that answers its operations. -/
def serve (answer : σ → (op : Op) → Ans op × σ) : Program Op Ans α → σ → α × σ
  | .done value, state => (value, state)
  | .call op next, state => serve answer (next (answer state op).1) (answer state op).2

@[simp] theorem serve_done (answer : σ → (op : Op) → Ans op × σ) (value : α) (state : σ) :
    (Program.done value).serve answer state = (value, state) :=
  rfl

@[simp] theorem serve_call (answer : σ → (op : Op) → Ans op × σ) (op : Op)
    (next : Ans op → Program Op Ans α) (state : σ) :
    (Program.call op next).serve answer state =
      (next (answer state op).1).serve answer (answer state op).2 :=
  rfl

theorem serve_bind (answer : σ → (op : Op) → Ans op × σ) (program : Program Op Ans α)
    (rest : α → Program Op Ans β) (state : σ) :
    (program.bind rest).serve answer state =
      (rest (program.serve answer state).1).serve answer (program.serve answer state).2 := by
  induction program generalizing state with
  | done value => rfl
  | call op next ih => exact ih _ _

/-- What the lawful operations leave true, a program that performs only such leaves true. -/
theorem Keeps.serve {post : α → History Op Ans → Prop} {answer : σ → (op : Op) → Ans op × σ}
    {holds : σ → Prop}
    (lawful : ∀ state op past, law op past → holds state → holds (answer state op).2)
    {program : Program Op Ans α} {history : History Op Ans} {state : σ}
    (keeps : Keeps law post program history) (before : holds state) :
    holds (program.serve answer state).2 := by
  induction program generalizing history state with
  | done value => exact before
  | call op next ih => exact ih _ (keeps.2 _) (lawful state op history keeps.1 before)

/-- A program whose history stays empty asks nothing, and leaves the state as it is. -/
theorem Keeps.serve_unasked {answer : σ → (op : Op) → Ans op × σ} {program : Program Op Ans α}
    {state : σ} (silent : Keeps law (fun _ log => log = []) program []) :
    (program.serve answer state).2 = state := by
  have asked (rest : Program Op Ans α) (history : History Op Ans) (state : σ)
      (silent : Keeps law (fun _ log => log = []) rest history) : history = [] := by
    induction rest generalizing history state with
    | done value => exact silent
    | call op next ih =>
        cases ih (answer state op).1 _ (answer state op).2 (silent.2 (answer state op).1)
  cases program with
  | done value => rfl
  | call op next => cases asked _ _ state (silent.2 (answer state op).1)

end Program

/-! ## Loops and their runs -/

/--
The programs a loop reaches from its first program, with the history that led
there.  `Sum.inl` goes round the loop again; `Sum.inr` leaves it.
-/
inductive Runs (body : σ → Program Op Ans (σ ⊕ α)) (first : Program Op Ans (σ ⊕ α)) :
    Program Op Ans (σ ⊕ α) → History Op Ans → Prop where
  | start : Runs body first first []
  | call {op : Op} {next : Ans op → Program Op Ans (σ ⊕ α)} {history : History Op Ans}
      (answer : Ans op) (before : Runs body first (.call op next) history) :
      Runs body first (next answer) (⟨op, answer⟩ :: history)
  | turn {state : σ} {history : History Op Ans}
      (before : Runs body first (.done (.inl state)) history) :
      Runs body first (body state) history

/-- The postcondition of a loop body: the invariant again, or the result's. -/
def LoopPost (invariant : σ → History Op Ans → Prop) (result : α → History Op Ans → Prop) :
    σ ⊕ α → History Op Ans → Prop
  | .inl state => invariant state
  | .inr value => result value

@[simp] theorem loopPost_inl (invariant : σ → History Op Ans → Prop)
    (result : α → History Op Ans → Prop) (state : σ) :
    LoopPost invariant result (.inl state) = invariant state :=
  rfl

@[simp] theorem loopPost_inr (invariant : σ → History Op Ans → Prop)
    (result : α → History Op Ans → Prop) (value : α) :
    LoopPost invariant result (.inr value) = result value :=
  rfl

/-- Run a loop for a number of steps, an oracle answering from the history. -/
def play (body : σ → Program Op Ans (σ ⊕ α)) (oracle : History Op Ans → (op : Op) → Ans op) :
    Nat → Program Op Ans (σ ⊕ α) → History Op Ans → Program Op Ans (σ ⊕ α) × History Op Ans
  | 0, program, history => (program, history)
  | steps + 1, .call op next, history =>
      play body oracle steps (next (oracle history op)) (⟨op, oracle history op⟩ :: history)
  | steps + 1, .done (.inl state), history => play body oracle steps (body state) history
  | _ + 1, .done (.inr value), history => (.done (.inr value), history)

section Loop

variable {body : σ → Program Op Ans (σ ⊕ α)} {first : Program Op Ans (σ ⊕ α)}
  {law : Op → History Op Ans → Prop} {invariant : σ → History Op Ans → Prop}
  {result : α → History Op Ans → Prop}

/--
The loop rule: when the first program establishes the invariant and the body
keeps it, every program a run reaches still obeys the law from there on.
-/
theorem Runs.keeps
    (established : Program.Keeps law (LoopPost invariant result) first [])
    (kept : ∀ state history, invariant state history →
      Program.Keeps law (LoopPost invariant result) (body state) history)
    {program : Program Op Ans (σ ⊕ α)} {history : History Op Ans}
    (run : Runs body first program history) :
    Program.Keeps law (LoopPost invariant result) program history := by
  induction run with
  | start => exact established
  | call answer before ih => exact ih.2 answer
  | turn before ih => exact kept _ _ ih

/-- The loop rule, read on the history: everything performed obeyed the law. -/
theorem Runs.always
    (established : Program.Keeps law (LoopPost invariant result) first [])
    (kept : ∀ state history, invariant state history →
      Program.Keeps law (LoopPost invariant result) (body state) history)
    {program : Program Op Ans (σ ⊕ α)} {history : History Op Ans}
    (run : Runs body first program history) : History.Always law history := by
  induction run with
  | start => exact History.always_nil law
  | call answer before ih =>
      exact (History.always_cons _ _ _).mpr ⟨(before.keeps established kept).1, ih⟩
  | turn before ih => exact ih

/-- What is played is a run. -/
theorem Runs.play (oracle : History Op Ans → (op : Op) → Ans op) (steps : Nat)
    {program : Program Op Ans (σ ⊕ α)} {history : History Op Ans}
    (run : Runs body first program history) :
    Runs body first (Effects.play body oracle steps program history).1
      (Effects.play body oracle steps program history).2 := by
  induction steps generalizing program history with
  | zero => exact run
  | succ steps ih =>
      cases program with
      | call op next => exact ih (run.call (oracle history op))
      | done value =>
          cases value with
          | inl state => exact ih run.turn
          | inr value => exact run

end Loop

end

end StormLb.Effects
