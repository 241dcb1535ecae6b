import Mathlib.Data.Finset.Basic
import StormLb.Effects.Threads
import StormLb.Vrrp.LoopInvariant

/-!
# Loops that share the interface addresses

Several control loops on one node claim and release addresses in one set.  A
loop that holds its address finds it there for as long as no other loop for the
same address releases it, so a loop that waits as Master has it.
-/

namespace StormLb.Vrrp

open StormLb.Net StormLb.Effects

/-- The address a loop claims, with its interface. -/
def Params.owned (p : Params) : String × String :=
  (p.iface, p.vip.display)

/-- The next thing a program does is release the address. -/
def releasesNext : Prog (Locals ⊕ Exit) → Bool
  | .call ⟨_, .release ..⟩ _ => true
  | _ => false

/-- Only controller calls decide whether the address is held. -/
theorem held_cons_of_not_controllerCall {call : Call} (other : call.op.controllerCall = none)
    (answer : call.Ans) (past : Log) : held (⟨call, answer⟩ :: past) = held past := by
  obtain ⟨l, op⟩ := call
  cases op with
  | claim vip iface => cases other
  | release vip iface => cases other
  | _ => rfl

/-- What a call does to the addresses when the controller succeeds. -/
inductive Controls (call : Call) (addresses : Finset (String × String)) :
    Finset (String × String) → Prop where
  | claimed (vip iface : String) (claim : call.op = .claim vip iface) :
      Controls call addresses (insert (iface, vip) addresses)
  | released (vip iface : String) (release : call.op = .release vip iface) :
      Controls call addresses (addresses.erase (iface, vip))
  | untouched (other : call.op.controllerCall = none) : Controls call addresses addresses

/-- Loops over a world with one set of addresses, on which the controller succeeds. -/
structure Owners (ι W : Type) where
  params : ι → Params
  serves : ι → W → (call : Call) → call.Ans → Option W
  drifts : W → W → Prop
  addresses : W → Finset (String × String)
  controls : ∀ {i : ι} {world after : W} {call : Call} {answer : call.Ans},
    serves i world call answer = some after → Controls call (addresses world) (addresses after)
  drifted : ∀ {world after : W}, drifts world after → addresses after = addresses world

namespace Owners

variable {ι W : Type} (o : Owners ι W)

def threads : Threads ι Call Call.Ans Locals Exit W where
  first i := (o.params i).startRun
  body i := (o.params i).turnRun
  serves := o.serves
  drifts := o.drifts

variable [DecidableEq ι]

/-- Whenever another loop for the same address releases it, loop `i` does not hold it. -/
def Spares (allowed : Option ι → Config ι Call Call.Ans Locals Exit W → Prop) (world : W) (i : ι) :
    Prop :=
  ∀ config j, Threads.Reaches o.threads allowed (o.threads.initial world) config →
    allowed (some j) config → j ≠ i → (o.params j).owned = (o.params i).owned →
      releasesNext (config.threads j) = true → held (config.histories i) = false

/-- What loop `i` holds is there. -/
def HeldIsPresent (i : ι) (config : Config ι Call Call.Ans Locals Exit W) : Prop :=
  held (config.histories i) = true → (o.params i).owned ∈ o.addresses config.world

variable {o} {world : W} {config : Config ι Call Call.Ans Locals Exit W}
  {allowed : Option ι → Config ι Call Call.Ans Locals Exit W → Prop} {i : ι}

/-- In every interleaving each loop obeys its law. -/
theorem keeps (reached : Threads.Reaches o.threads allowed (o.threads.initial world) config)
    (i : ι) :
    Program.Keeps (Lawful (o.params i)) (LoopPost Ready Settled)
      (config.threads i) (config.histories i) :=
  (reached.solo i).keeps Params.keeps_startRun fun _ _ => Params.keeps_turnRun

/-- What a spared loop holds is there. -/
theorem heldIsPresent (spares : o.Spares allowed world i)
    (reached : Threads.Reaches o.threads allowed (o.threads.initial world) config) :
    o.HeldIsPresent i config := by
  refine reached.invariant ?_ ?_
  · intro holds
    cases holds
  · intro who config after reached present admitted stepped
    cases stepped with
    | turn looped => exact present
    | drift moved =>
        rw [HeldIsPresent, o.drifted moved]
        exact present
    | @call _ j call next world answer waiting served =>
        have lawful := keeps reached j
        rw [waiting] at lawful
        have proper := lawful.1.1
        have controls := o.controls served
        intro holds
        change (o.params i).owned ∈ o.addresses world
        by_cases own : j = i
        · subst own
          replace holds : held (⟨call, answer⟩ :: config.histories j) = true := by
            simpa [Config.advance] using holds
          obtain ⟨l, op⟩ := call
          generalize o.addresses world = after at controls ⊢
          cases controls with
          | claimed vip iface claim =>
              cases claim
              obtain ⟨rfl, rfl, _⟩ := proper
              exact Finset.mem_insert_self _ _
          | released vip iface release =>
              cases release
              cases holds
          | untouched other =>
              rw [held_cons_of_not_controllerCall other answer] at holds
              exact present holds
        · replace holds : held (config.histories i) = true := by
            simpa [Config.advance, Function.update_of_ne (Ne.symm own)] using holds
          obtain ⟨l, op⟩ := call
          generalize o.addresses world = after at controls ⊢
          cases controls with
          | claimed vip iface claim => exact Finset.mem_insert_of_mem (present holds)
          | released vip iface release =>
              cases release
              obtain ⟨rfl, rfl, _⟩ := proper
              refine Finset.mem_erase_of_ne_of_mem (fun same => ?_) (present holds)
              -- The schedule admits this release only while loop `i` holds nothing.
              have free := spares config j reached admitted own same.symm (by rw [waiting]; rfl)
              rw [free] at holds
              cases holds
          | untouched other => exact present holds

/-- A spared loop that waits as Master has its address. -/
theorem waits_mem (spares : o.Spares allowed world i)
    (reached : Threads.Reaches o.threads allowed (o.threads.initial world) config) {l : Locals}
    {next : Recv → Prog (Locals ⊕ Exit)}
    (waiting : config.threads i = .call ⟨some l, .recvFrom⟩ next) (master : l.vr.state = .master) :
    (o.params i).owned ∈ o.addresses config.world := by
  have lawful := keeps reached i
  rw [waiting] at lawful
  obtain ⟨_, same, waits⟩ := lawful.1.1
  cases same
  exact heldIsPresent spares reached (waits.holds.mpr master)

end Owners

end StormLb.Vrrp
