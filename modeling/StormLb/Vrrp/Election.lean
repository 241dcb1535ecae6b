import Mathlib.Data.Prod.Lex
import StormLb.Effects.Contest
import StormLb.Vrrp.Router

/-!
# Election of one Master

The routers of one VRID on a segment hear each other's advertisements.  Hearing
one is a hearing of the contest whose ranks are the pairs (priority, address):
Masters are its holders, and a priority-0 advertisement carries no rank.
-/

namespace StormLb.Vrrp

open StormLb.Net StormLb.Contest

/-- The routers of one VRID that share a segment, each with its own address. -/
structure Segment (ι : Type) where
  vrid : UInt8
  routers : ι → VirtualRouter
  addr : ι → Ipv4Addr
  sameVrid : ∀ i, (routers i).vrid = vrid
  priorityPos : ∀ i, 0 < (routers i).priority
  addrInjective : Function.Injective addr

/-- An advertisement that reaches one router. -/
structure Delivery (ι : Type) where
  receiver : ι
  priority : UInt8
  src : Ipv4Addr
  intervalCentis : UInt16
  deriving DecidableEq, Repr

section

variable {ι : Type} [DecidableEq ι]

/-- The receiver handles the advertisement; the other routers do nothing. -/
def deliver (addr : ι → Ipv4Addr) (routers : ι → VirtualRouter) (delivery : Delivery ι) :
    ι → VirtualRouter :=
  Function.update routers delivery.receiver
    ((routers delivery.receiver).onAdvertisement delivery.priority delivery.src
      (addr delivery.receiver) delivery.intervalCentis).2

def deliverAll (addr : ι → Ipv4Addr) (routers : ι → VirtualRouter)
    (deliveries : List (Delivery ι)) : ι → VirtualRouter :=
  deliveries.foldl (deliver addr) routers

/-! ## Deliveries are hearings -/

def masters (routers : ι → VirtualRouter) : Set ι :=
  {i | (routers i).state = .master}

/-- Routers are compared by priority, then by address. -/
def rank (addr : ι → Ipv4Addr) (routers : ι → VirtualRouter) (i : ι) : ℕ ×ₗ Ipv4Addr :=
  toLex ((routers i).priority.toNat, addr i)

def Delivery.hearing (delivery : Delivery ι) : Hearing ι (ℕ ×ₗ Ipv4Addr) where
  node := delivery.receiver
  rank := if delivery.priority = 0 then none else some (toLex (delivery.priority.toNat, delivery.src))

omit [DecidableEq ι] in
theorem rank_lt_iff_outranked (addr : ι → Ipv4Addr) (routers : ι → VirtualRouter) (i : ι)
    (priority : UInt8) (src : Ipv4Addr) :
    rank addr routers i < toLex (priority.toNat, src) ↔
      (routers i).Outranked (addr i) priority src := by
  simp only [rank, Prod.Lex.toLex_lt_toLex, VirtualRouter.Outranked, UInt8.lt_iff_toNat_lt,
    ← UInt8.toNat_inj, eq_comm]

/-- No delivery changes a rank. -/
theorem rank_deliver (addr : ι → Ipv4Addr) (routers : ι → VirtualRouter)
    (delivery : Delivery ι) : rank addr (deliver addr routers delivery) = rank addr routers := by
  funext i
  by_cases receives : i = delivery.receiver
  · subst receives
    simp [rank, deliver, VirtualRouter.onAdvertisement_priority]
  · simp [rank, deliver, receives]

/-- The Masters left after a delivery are the holders left after its hearing. -/
theorem masters_deliver (addr : ι → Ipv4Addr) (routers : ι → VirtualRouter)
    (delivery : Delivery ι) :
    masters (deliver addr routers delivery) =
      hear (rank addr routers) (masters routers) delivery.hearing := by
  ext i
  by_cases receives : i = delivery.receiver
  · subst receives
    by_cases resigned : delivery.priority = 0
    · simp [masters, deliver, hear, Delivery.hearing, resigned,
        VirtualRouter.onAdvertisement_master_iff]
    · simp [masters, deliver, hear, Delivery.hearing, resigned,
        VirtualRouter.onAdvertisement_master_iff, ← rank_lt_iff_outranked]
  · simp [masters, deliver, hear, Delivery.hearing, receives, Ne.symm receives]

theorem masters_deliverAll (addr : ι → Ipv4Addr) (routers : ι → VirtualRouter)
    (deliveries : List (Delivery ι)) :
    masters (deliverAll addr routers deliveries) =
      hearAll (rank addr routers) (masters routers) (deliveries.map Delivery.hearing) := by
  induction deliveries generalizing routers with
  | nil => rfl
  | cons delivery rest ih =>
      have later := ih (deliver addr routers delivery)
      rw [rank_deliver, masters_deliver] at later
      exact later

end

/-! ## The election -/

namespace Segment

variable {ι : Type} (segment : Segment ι)

def IsMaster (i : ι) : Prop :=
  (segment.routers i).state = .master

/-- The advertisement of an initial Master, on its way to another router. -/
def IsAdvertOf (m : ι) (delivery : Delivery ι) : Prop :=
  delivery.priority = (segment.routers m).priority ∧ delivery.src = segment.addr m

/-- At least as great by priority, then by address. -/
def AtLeast (i j : ι) : Prop :=
  (segment.routers j).priority < (segment.routers i).priority ∨
    ((segment.routers j).priority = (segment.routers i).priority ∧ segment.addr j ≤ segment.addr i)

theorem atLeast_iff_rank (i j : ι) :
    segment.AtLeast i j ↔ rank segment.addr segment.routers j ≤ rank segment.addr segment.routers i := by
  simp only [AtLeast, rank, Prod.Lex.toLex_le_toLex, UInt8.lt_iff_toNat_lt, ← UInt8.toNat_inj]

theorem rank_injective : Function.Injective (rank segment.addr segment.routers) := by
  intro i j same
  exact segment.addrInjective (Prod.ext_iff.mp (toLex.injective same)).2

theorem hearing_of_advert {m : ι} {delivery : Delivery ι}
    (advert : segment.IsAdvertOf m delivery) :
    delivery.hearing.rank = some (rank segment.addr segment.routers m) := by
  have nonzero : delivery.priority ≠ 0 := by
    rw [advert.1]
    exact (UInt8.pos_iff_ne_zero).mp (segment.priorityPos m)
  change (if delivery.priority = 0 then none else _) = _
  rw [if_neg nonzero, advert.1, advert.2]
  rfl

/--
Only the adverts of initial Masters and priority-0 adverts are delivered: then
the ranks heard are ranks of the first holders.
-/
theorem holdersHeard {deliveries : List (Delivery ι)}
    (fromMasters : ∀ delivery ∈ deliveries, delivery.priority = 0 ∨
      ∃ m, segment.IsMaster m ∧ m ≠ delivery.receiver ∧ segment.IsAdvertOf m delivery) :
    HoldersHeard (rank segment.addr segment.routers) (masters segment.routers)
      (deliveries.map Delivery.hearing) := by
  intro hearing member heard same
  obtain ⟨delivery, delivered, rfl⟩ := List.mem_map.mp member
  rcases fromMasters delivery delivered with resigned | ⟨m, master, _, advert⟩
  · simp [Delivery.hearing, resigned] at same
  · rw [segment.hearing_of_advert advert] at same
    exact ⟨m, master, (Option.some.inj same).symm⟩

/--
However the adverts of the initial Masters reach the other routers, there is
always a Master, and once they all did, the greatest initial Master is the only one.
-/
theorem election_converges [Fintype ι] [DecidableEq ι] (deliveries : List (Delivery ι))
    (someMaster : ∃ i, segment.IsMaster i)
    (fromMasters : ∀ delivery ∈ deliveries, delivery.priority = 0 ∨
      ∃ m, segment.IsMaster m ∧ m ≠ delivery.receiver ∧ segment.IsAdvertOf m delivery)
    (everyMaster : ∀ m, segment.IsMaster m → ∀ i ≠ m, ∃ delivery ∈ deliveries,
      delivery.receiver = i ∧ segment.IsAdvertOf m delivery) :
    (∀ past, past <+: deliveries →
      ∃ i, (deliverAll segment.addr segment.routers past i).state = .master) ∧
    ∃ m, segment.IsMaster m ∧ (∀ j, segment.IsMaster j → segment.AtLeast m j) ∧
      ∀ i, (deliverAll segment.addr segment.routers deliveries i).state = .master ↔ i = m := by
  have held : (masters segment.routers).Nonempty := someMaster
  obtain ⟨m, greatest⟩ := exists_greatestHolder (rank segment.addr segment.routers) held
  have stays : ∀ past, past <+: deliveries →
      (deliverAll segment.addr segment.routers past m).state = .master := by
    intro past before
    have heard := segment.holdersHeard fun delivery (member : delivery ∈ past) =>
      fromMasters delivery (before.subset member)
    have held := greatest_mem_hearAll greatest heard
    rwa [← masters_deliverAll] at held
  have alone := hearAll_eq_singleton segment.rank_injective greatest
    (segment.holdersHeard fromMasters) (by
      intro i other
      obtain ⟨delivery, member, reaches, advert⟩ := everyMaster m greatest.1 i other
      exact ⟨delivery.hearing, List.mem_map_of_mem member, reaches,
        segment.hearing_of_advert advert⟩)
  rw [← masters_deliverAll] at alone
  refine ⟨fun past before => ⟨m, stays past before⟩, m, greatest.1, fun j master => ?_, fun i => ?_⟩
  · exact (segment.atLeast_iff_rank m j).mpr (greatest.2 j master)
  · exact Set.ext_iff.mp alone i

end Segment

/-- Two Masters of priorities 100 and 200 that have not yet heard each other. -/
def twoMasters : Segment Bool where
  vrid := 51
  routers := fun i =>
    { VirtualRouter.new 51 (if i then 200 else 100) true 1 with state := .master }
  addr := fun i => ⟨10, 0, 0, if i then 1 else 2⟩
  sameVrid := by decide
  priorityPos := by decide
  addrInjective := by decide

theorem election_converges_twoMasters :
    (∀ past, past <+: [⟨true, 100, ⟨10, 0, 0, 2⟩, 100⟩, ⟨false, 200, ⟨10, 0, 0, 1⟩, 100⟩] →
      ∃ i, (deliverAll twoMasters.addr twoMasters.routers past i).state = .master) ∧
    ∃ m, twoMasters.IsMaster m ∧ (∀ j, twoMasters.IsMaster j → twoMasters.AtLeast m j) ∧
      ∀ i, (deliverAll twoMasters.addr twoMasters.routers
        [⟨true, 100, ⟨10, 0, 0, 2⟩, 100⟩, ⟨false, 200, ⟨10, 0, 0, 1⟩, 100⟩] i).state = .master ↔
          i = m := by
  refine twoMasters.election_converges _ ⟨true, rfl⟩ ?_ ?_
  · intro delivery member
    right
    rcases List.mem_pair.mp member with rfl | rfl
    · exact ⟨false, rfl, by decide, rfl, rfl⟩
    · exact ⟨true, rfl, by decide, rfl, rfl⟩
  · intro m _ i other
    cases m
    · exact ⟨_, List.mem_cons_self, by simpa using other.symm, rfl, rfl⟩
    · exact ⟨_, List.mem_cons_of_mem _ List.mem_cons_self, by simpa using other.symm, rfl, rfl⟩

end StormLb.Vrrp
