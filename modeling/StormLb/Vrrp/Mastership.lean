import StormLb.Effects.Promise
import StormLb.Vrrp.LoopInvariant

/-!
# Advertisements and the address behind them

A router that becomes Master claims the address and advertises it until it
releases it.  That the claim failed is only logged, so the advertisements are
backed by the address as long as no claim fails.
-/

namespace StormLb.Vrrp

open StormLb.Effects

/-- The last controller call is a claim, and it returned `Ok`. -/
def claimedOk : Log → Bool
  | [] => false
  | ⟨⟨_, op⟩, answer⟩ :: past =>
      match op, answer with
      | .claim .., ok => ok
      | .release .., _ => false
      | _, _ => claimedOk past

/-- Whenever an advertisement is sent that is no resignation, the address is claimed. -/
def Backed (log : Log) : Prop :=
  ∀ locals packet sent past, ⟨⟨locals, .sendTo packet⟩, sent⟩ :: past <:+ log →
    advertisedPriority packet ≠ 0 → claimedOk past = true

/-- No claim fails. -/
def claimsSucceed : Promise Call Call.Ans :=
  fun call answer _ =>
    match call, answer with
    | ⟨_, .claim ..⟩, ok => ok = true
    | _, _ => True

/-- Where no claim failed, the address is claimed while it is held. -/
theorem claimedOk_of_held {log : Log} (succeed : log.Admitted claimsSucceed)
    (holds : held log = true) : claimedOk log = true := by
  induction log with
  | nil => cases holds
  | cons event past ih =>
      obtain ⟨succeeds, earlier⟩ := History.admitted_cons.mp succeed
      obtain ⟨⟨l, op⟩, answer⟩ := event
      cases op with
      | claim vip iface => exact succeeds
      | release vip iface => cases holds
      | _ => exact ih earlier holds

/-! ## A Master advertises what it holds -/

/-- An advertisement that is no resignation finds the address held. -/
def AdvertisesHeld (call : Call) (past : Log) : Prop :=
  match call.op with
  | .sendTo packet => advertisedPriority packet ≠ 0 → held past = true
  | _ => True

section

open Program (Keeps)

variable {p : Params} {l : Locals} {log : Log}

theorem advertisesHeld_resignation :
    AdvertisesHeld ⟨some l, .sendTo (p.packet l 0)⟩ log := by
  intro nonzero
  rw [Params.packet, advertisedPriority_encode] at nonzero
  exact absurd rfl nonzero

namespace Params

theorem keeps_startLoop_held : Keeps AdvertisesHeld (fun _ _ => True) p.startLoop log := by
  refine ⟨trivial, fun found => ?_⟩
  cases found with
  | none => trivial
  | some ifaceIp =>
      refine ⟨trivial, fun opened => ?_⟩
      cases opened with
      | false => trivial
      | true =>
          refine ⟨trivial, fun healthy => ⟨trivial, fun _ => ⟨trivial, fun _ => ⟨trivial, ?_⟩⟩⟩⟩
          intro now
          simp only [Program.done_bind]
          split
          · exact ⟨trivial, fun _ => trivial⟩
          · trivial

theorem keeps_stopped_held : Keeps AdvertisesHeld (fun _ _ => True) (p.stopped l) log := by
  unfold stopped
  split
  · exact ⟨advertisesHeld_resignation, fun _ => ⟨trivial, fun _ => trivial⟩⟩
  · trivial

theorem keeps_checkHealth_held : Keeps AdvertisesHeld (fun _ _ => True) (p.checkHealth l) log := by
  refine ⟨trivial, fun healthy => ?_⟩
  simp only [Program.done_bind]
  split
  · refine ⟨advertisesHeld_resignation, fun _ => ⟨trivial, fun _ => ⟨trivial, fun _ => trivial⟩⟩⟩
  · trivial

theorem keeps_onDatagram_held (data : List UInt8) :
    Keeps AdvertisesHeld (fun _ _ => True) (p.onDatagram l data) log := by
  simp only [onDatagram]
  cases parseAdvertisement data p.vrid with
  | none => trivial
  | some a =>
      dsimp only
      split
      · trivial
      · cases (l.vr.onAdvertisement a.priority a.src l.ifaceIp a.intervalCentis).1 with
        | ignore => trivial
        | resetTimer centis => exact ⟨trivial, fun _ => trivial⟩
        | advertiseNow => exact ⟨trivial, fun _ => trivial⟩
        | demoted centis => exact ⟨trivial, fun _ => ⟨trivial, fun _ => trivial⟩⟩

/-- The one advertisement that is no resignation is sent by a Master. -/
theorem keeps_onTimedOut_held (holds : l.vr.state = .master → held log = true) :
    Keeps AdvertisesHeld (fun _ _ => True) (p.onTimedOut l) log := by
  refine ⟨trivial, fun now => ?_⟩
  simp only [Program.done_bind]
  split_ifs with advertises elapsed
  · exact ⟨fun _ => holds advertises.1, fun _ => trivial⟩
  · refine ⟨trivial, fun healthy => ?_⟩
    simp only [Program.done_bind]
    split
    · exact ⟨trivial, fun _ => trivial⟩
    · trivial
  · trivial

theorem keeps_await_held (holds : l.vr.state = .master → held log = true) :
    Keeps AdvertisesHeld (fun _ _ => True) (p.await l) log := by
  refine ⟨trivial, fun _ => ⟨trivial, fun now => ⟨trivial, fun timed => ?_⟩⟩⟩
  cases timed with
  | false => trivial
  | true =>
      refine ⟨trivial, fun heard => ?_⟩
      cases heard with
      | datagram data => exact keeps_onDatagram_held data
      | timedOut => exact keeps_onTimedOut_held holds
      | failed => trivial

/-- The law of the loop, and advertisements of a held address. -/
abbrev LawfulHeld (p : Params) (call : Call) (past : Log) : Prop :=
  Lawful p call past ∧ AdvertisesHeld call past

/-- A turn that begins ready advertises what it holds. -/
theorem keeps_turnLoop_held (ready : Ready l log) :
    Keeps p.LawfulHeld (LoopPost Ready Settled) (p.turnLoop l) log := by
  refine ⟨⟨lawful_of_paid ready.paid trivial, trivial⟩, fun stop => ?_⟩
  cases stop with
  | true => exact (keeps_stopped ready).also keeps_stopped_held
  | false =>
      have goesOn : Ready l (⟨⟨some l, .stopLoad⟩, false⟩ :: log) :=
        ⟨ready.holds, ready.started, by simp [ready.paid], by simp [ready.sound]⟩
      refine ((keeps_checkHealth goesOn).also keeps_checkHealth_held).bind fun _ _ checked => ?_
      exact (keeps_await checked).also (keeps_await_held checked.holds.mpr)

end Params

end

/-- In every run in which no claim fails, every advertisement is backed by the address. -/
theorem backed_of_claimsSucceed (p : Params) {program : Prog (Locals ⊕ Exit)} {log : Log}
    (run : Runs p.turnLoop p.startLoop program log) (succeed : log.Admitted claimsSucceed) :
    Backed log := by
  have always := run.always (Params.keeps_startLoop.also Params.keeps_startLoop_held)
    fun _ _ => Params.keeps_turnLoop_held
  intro locals packet sent past suffix nonzero
  have holds : held past = true := (always _ past suffix).2 nonzero
  exact claimedOk_of_held (succeed.earlier ((List.suffix_cons _ _).trans suffix)) holds

/-! ## A claim that fails -/

/-- The owner's answers at time 0, when the interface may be gone. -/
def answersClaim (ok : Bool) (log : Log) (call : Call) : call.Ans :=
  match call with
  | ⟨_, .claim ..⟩ => ok
  | call => answers .timedOut log call

/-- The owner starts, claims, waits once and advertises. -/
def firstAdvertisement (ok : Bool) : Prog (Locals ⊕ Exit) × Log :=
  play owner.turnLoop (answersClaim ok) 16 owner.startLoop []

/-- The claim fails, and the owner advertises. -/
theorem unclaimed_advertised :
    ¬ ∀ (p : Params) (program : Prog (Locals ⊕ Exit)) (log : Log),
      Runs p.turnLoop p.startLoop program log → Backed log := by
  intro backed
  have run : Runs owner.turnLoop owner.startLoop (firstAdvertisement false).1
      (firstAdvertisement false).2 := Runs.play (answersClaim false) 16 .start
  obtain ⟨l, newest⟩ : ∃ l, (firstAdvertisement false).2 =
      ⟨⟨some l, .sendTo (owner.packet l 255)⟩, true⟩ :: (firstAdvertisement false).2.tail :=
    ⟨_, rfl⟩
  have claimed : claimedOk (firstAdvertisement false).2.tail = true := by
    refine backed owner _ _ run _ _ _ _ ⟨[], newest.symm⟩ ?_
    rw [Params.packet, advertisedPriority_encode]
    decide
  exact absurd claimed (by decide)

theorem backed_firstAdvertisement : Backed (firstAdvertisement true).2 := by
  refine backed_of_claimsSucceed owner (Runs.play (answersClaim true) 16 .start) ?_
  refine play_admitted (answersClaim true) (fun call past _ => ?_) 16 _ History.admitted_nil
  obtain ⟨l, op⟩ := call
  cases op with
  | claim vip iface => rfl
  | _ => trivial

end StormLb.Vrrp
