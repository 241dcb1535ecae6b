import StormLb.Effects.Program

/-!
# Programs over two signatures

Threads of different kinds share one world when each performs the operations of
its own signature within their sum.  What is proved of a program over its own
signature holds of it there, read on its own part of the history.
-/

namespace StormLb.Effects

variable {Op Other : Type} {Ans : Op → Type} {OtherAns : Other → Type} {α : Type}

namespace Program

/-- The program, performing the operations of the first signature. -/
def left : Program Op Ans α → Program (Op ⊕ Other) (Sum.elim Ans OtherAns) α
  | .done value => .done value
  | .call op next => .call (.inl op) fun answer => (next answer).left

/-- The program, performing the operations of the second signature. -/
def right : Program Other OtherAns α → Program (Op ⊕ Other) (Sum.elim Ans OtherAns) α
  | .done value => .done value
  | .call op next => .call (.inr op) fun answer => (next answer).right

end Program

namespace History

/-- What happened of the first signature. -/
def lefts : History (Op ⊕ Other) (Sum.elim Ans OtherAns) → History Op Ans
  | [] => []
  | ⟨.inl op, answer⟩ :: past => ⟨op, answer⟩ :: lefts past
  | ⟨.inr _, _⟩ :: past => lefts past

/-- What happened of the second signature. -/
def rights : History (Op ⊕ Other) (Sum.elim Ans OtherAns) → History Other OtherAns
  | [] => []
  | ⟨.inl _, _⟩ :: past => rights past
  | ⟨.inr op, answer⟩ :: past => ⟨op, answer⟩ :: rights past

end History

namespace Program

/-- Only operations of the first signature are performed, and those lawfully. -/
def OnLeft (law : Op → History Op Ans → Prop) (op : Op ⊕ Other)
    (past : History (Op ⊕ Other) (Sum.elim Ans OtherAns)) : Prop :=
  match op with
  | .inl op => law op (History.lefts past)
  | .inr _ => False

/-- Only operations of the second signature are performed, and those lawfully. -/
def OnRight (law : Other → History Other OtherAns → Prop) (op : Op ⊕ Other)
    (past : History (Op ⊕ Other) (Sum.elim Ans OtherAns)) : Prop :=
  match op with
  | .inl _ => False
  | .inr op => law op (History.rights past)

theorem Keeps.left {law : Op → History Op Ans → Prop} {post : α → History Op Ans → Prop}
    {program : Program Op Ans α} {history : History (Op ⊕ Other) (Sum.elim Ans OtherAns)}
    (keeps : Keeps law post program (History.lefts history)) :
    Keeps (OnLeft law) (fun value after => post value (History.lefts after)) program.left
      history := by
  induction program generalizing history with
  | done value => exact keeps
  | call op next ih => exact ⟨keeps.1, fun answer => ih answer (keeps.2 answer)⟩

theorem Keeps.right {law : Other → History Other OtherAns → Prop}
    {post : α → History Other OtherAns → Prop} {program : Program Other OtherAns α}
    {history : History (Op ⊕ Other) (Sum.elim Ans OtherAns)}
    (keeps : Keeps law post program (History.rights history)) :
    Keeps (OnRight law) (fun value after => post value (History.rights after)) program.right
      history := by
  induction program generalizing history with
  | done value => exact keeps
  | call op next ih => exact ⟨keeps.1, fun answer => ih answer (keeps.2 answer)⟩

end Program

end StormLb.Effects
