import StormLb.Effects.Promise
import StormLb.Vrrp.LoopInvariant

/-!
# Timers that are due

The loop wakes for the Master's next advertisement or the Backup's master-down
deadline, but looks at the clock only when a receive times out.  Datagrams that
leave the timers alone, one right after the other, therefore keep a deadline that
has passed from being served, and nothing else does.
-/

namespace StormLb.Vrrp

open StormLb.Effects

/-! ## Reading the log -/

/-- The deadline that the loop wakes for. -/
def Locals.deadline (l : Locals) : Instant :=
  if l.vr.state = .master then l.nextAdvert else l.masterDownDeadline

/-- The latest reading of the clock. -/
def clock : Log → Instant
  | [] => 0
  | ⟨⟨_, .now⟩, reading⟩ :: _ => reading
  | _ :: past => clock past

/-- A receive: the loop's variables, what was heard, and the log before it. -/
structure Receive where
  locals : Locals
  heard : Recv
  past : Log

def lastReceive : Log → Option Receive
  | [] => none
  | ⟨⟨some l, .recvFrom⟩, heard⟩ :: past => some ⟨l, heard, past⟩
  | _ :: past => lastReceive past

/-- A promise of the datagrams alone. -/
def ofDatagrams (holds : Locals → List UInt8 → Log → Prop) : Promise Call Call.Ans :=
  fun call answer past => ∀ l data,
    (⟨call, answer⟩ : Event Call Call.Ans) = ⟨⟨some l, .recvFrom⟩, .datagram data⟩ →
      holds l data past

theorem admitted_ofDatagrams {holds : Locals → List UInt8 → Log → Prop} {log : Log} :
    log.Admitted (ofDatagrams holds) ↔
      ∀ l data past, ⟨⟨some l, .recvFrom⟩, .datagram data⟩ :: past <:+ log → holds l data past := by
  constructor
  · exact fun admitted l data past suffix => admitted _ _ suffix l data rfl
  · rintro each event past suffix l data same
    obtain rfl : event = _ := same
    exact each l data past suffix

namespace Params

variable (p : Params)

/--
The newest call carries out a deadline's action: a Master advertises, or a
Backup that has just read the clock asks whether it may take over.
-/
def carriesOut : Log → Bool
  | ⟨⟨some l, .sendTo packet⟩, _⟩ :: _ => l.vr.state = .master ∧ packet = p.packet l p.priority
  | ⟨⟨some l, .healthy⟩, _⟩ :: ⟨⟨_, .now⟩, _⟩ :: _ => l.vr.state = .backup
  | _ => false

/-- A deadline's action was carried out since the last receive. -/
def acted : Log → Bool
  | [] => false
  | ⟨⟨_, .recvFrom⟩, _⟩ :: _ => false
  | event :: past => p.carriesOut (event :: past) || acted past

/-- The datagram moves no timer: it is no advertisement of this router, our own, or ignored. -/
def leaves (l : Locals) (data : List UInt8) : Bool :=
  match parseAdvertisement data p.vrid with
  | none => true
  | some a =>
      a.src = l.ifaceIp ∨
        (l.vr.onAdvertisement a.priority a.src l.ifaceIp a.intervalCentis).1 = .ignore

/-- The deadline had passed when the receive began, and its datagram did not move it. -/
def Passes (receive : Receive) : Prop :=
  ∃ data, receive.heard = .datagram data ∧ receive.locals.deadline ≤ clock receive.past ∧
    p.leaves receive.locals data = true

/--
A second datagram after a receive that a passed deadline waited through: the same
deadline still, not moved by this one either, and its action was not carried out.
-/
def Starves (l : Locals) (data : List UInt8) (past : Log) : Prop :=
  ∃ receive, lastReceive past = some receive ∧ p.Passes receive ∧
    l.vr.state = receive.locals.vr.state ∧ l.deadline = receive.locals.deadline ∧
    p.leaves l data = true ∧ p.acted past = false

/-- No datagram is handled while a passed deadline starves. -/
def attends : Promise Call Call.Ans :=
  ofDatagrams fun l data past => ¬ p.Starves l data past

/--
In the same role, a datagram that a passed deadline waited through is not followed
at once by another that leaves the timers alone.
-/
def lulls : Promise Call Call.Ans :=
  ofDatagrams fun l data past =>
    ∀ receive, lastReceive past = some receive → p.Passes receive →
      l.vr.state = receive.locals.vr.state → p.leaves l data = false

end Params

/-! ## What a datagram leaves undone -/

/-- After a datagram that moved no timer, the deadline stands in its role, and nothing was done. -/
def Undone (p : Params) (l : Locals) (log : Log) : Prop :=
  ∀ receive data, lastReceive log = some receive → receive.heard = .datagram data →
    p.leaves receive.locals data = true →
      (l.vr.state = receive.locals.vr.state → l.deadline = receive.locals.deadline) ∧
        p.acted log = false

/-- Between two turns the variables are still those of that receive. -/
def Unmoved (p : Params) (l : Locals) (log : Log) : Prop :=
  ∀ receive data, lastReceive log = some receive → receive.heard = .datagram data →
    p.leaves receive.locals data = true → l = receive.locals ∧ p.acted log = false

/-- A receive finds the deadline of the last datagram undone. -/
def Waits (p : Params) (call : Call) (past : Log) : Prop :=
  ∀ l, call = ⟨some l, .recvFrom⟩ → Undone p l past

section

open Program (Keeps)

variable {p : Params} {l : Locals} {log : Log}

theorem waits_of_ne {call : Call} (other : call.op ≠ .recvFrom) : Waits p call log := by
  rintro l rfl
  exact absurd rfl other

theorem waits_now : Waits p ⟨some l, .now⟩ log :=
  waits_of_ne nofun

theorem waits_release {vip iface : String} : Waits p ⟨some l, .release vip iface⟩ log :=
  waits_of_ne nofun

/-- Before the first receive. -/
theorem Unmoved.none (unheard : lastReceive log = none) : Unmoved p l log := by
  intro receive data last
  cases unheard.symm.trans last

/-- After a receive that was no datagram, or one that moved a timer. -/
theorem Unmoved.of_receive {receive : Receive} (last : lastReceive log = some receive)
    (moved : ∀ data, receive.heard = .datagram data → p.leaves receive.locals data = false) :
    Unmoved p l log := by
  intro other data same heard leaves
  obtain rfl := Option.some.inj (last.symm.trans same)
  cases (moved data heard).symm.trans leaves

namespace Params

theorem keeps_startLoop_undone :
    Keeps (Waits p) (LoopPost (Unmoved p) fun _ _ => True) p.startLoop [] := by
  refine ⟨waits_of_ne nofun, fun found => ?_⟩
  cases found with
  | none => trivial
  | some ifaceIp =>
      refine ⟨waits_of_ne nofun, fun opened => ?_⟩
      cases opened with
      | false => trivial
      | true =>
          refine ⟨waits_of_ne nofun, fun healthy => ⟨waits_of_ne nofun, fun _ => ?_⟩⟩
          refine ⟨waits_of_ne nofun, fun nextAdvert => ⟨waits_of_ne nofun, fun now => ?_⟩⟩
          simp only [Program.done_bind]
          split
          · exact ⟨waits_of_ne nofun, fun _ => Unmoved.none rfl⟩
          · exact Unmoved.none rfl

theorem keeps_stopped_undone : Keeps (Waits p) (LoopPost (Unmoved p) fun _ _ => True) (p.stopped l)
    log := by
  unfold stopped
  split
  · exact ⟨waits_of_ne nofun, fun _ => ⟨waits_of_ne nofun, fun _ => trivial⟩⟩
  · trivial

/-- The health check keeps the deadline of the role, and is no takeover. -/
theorem keeps_checkHealth_undone (unmoved : Unmoved p l log) :
    Keeps (Waits p) (Undone p) (p.checkHealth l) (⟨⟨some l, .stopLoad⟩, false⟩ :: log) := by
  refine ⟨waits_of_ne nofun, fun healthy => ?_⟩
  simp only [Program.done_bind]
  rcases l.vr.onHealth_cases healthy with ⟨master, rfl, resigns⟩ | ⟨well, same⟩
  · simp only [resigns, if_true]
    refine ⟨waits_of_ne nofun, fun _ => ⟨waits_of_ne nofun, fun _ => ⟨waits_of_ne nofun, ?_⟩⟩⟩
    intro now receive data last heard leaves
    obtain ⟨rfl, unacted⟩ := unmoved receive data last heard leaves
    refine ⟨fun backup => ?_, unacted⟩
    cases backup.trans master
  · simp only [same]
    intro receive data last heard leaves
    obtain ⟨rfl, unacted⟩ := unmoved receive data last heard leaves
    exact ⟨fun _ => rfl, unacted⟩

theorem keeps_onDatagram_undone (data : List UInt8) :
    Keeps (Waits p) (LoopPost (Unmoved p) fun _ _ => True) (p.onDatagram l data)
      (⟨⟨some l, .recvFrom⟩, .datagram data⟩ :: log) := by
  have unchanged : Unmoved p l (⟨⟨some l, .recvFrom⟩, .datagram data⟩ :: log) := by
    rintro _ _ ⟨⟩ _ _
    exact ⟨rfl, rfl⟩
  simp only [onDatagram]
  cases parsed : parseAdvertisement data p.vrid with
  | none => exact unchanged
  | some a =>
      dsimp only
      split
      · exact unchanged
      · rename_i foreign
        -- An action moves the timer, so the datagram did not leave it.
        have moved {l' : Locals} {after : Log}
            (acts : (l.vr.onAdvertisement a.priority a.src l.ifaceIp a.intervalCentis).1 ≠ .ignore)
            (last : lastReceive after = some ⟨l, .datagram data, log⟩) : Unmoved p l' after := by
          refine Unmoved.of_receive last ?_
          rintro _ ⟨⟩
          simp only [leaves, parsed, foreign, acts, or_self, decide_false]
        rcases l.vr.onAdvertisement_cases a.priority a.src l.ifaceIp a.intervalCentis with
          ⟨centis, demoted, _⟩ | ⟨ignored, same⟩ | ⟨centis, reset, _⟩ | ⟨advertise, _⟩
        · simp only [demoted]
          refine ⟨waits_release, fun _ => ⟨waits_now, fun now => moved ?_ rfl⟩⟩
          simp only [demoted, ne_eq, reduceCtorEq, not_false_eq_true]
        · simp only [ignored, same]
          exact unchanged
        · simp only [reset]
          refine ⟨waits_now, fun now => moved ?_ rfl⟩
          simp only [reset, ne_eq, reduceCtorEq, not_false_eq_true]
        · simp only [advertise]
          refine ⟨waits_now, fun now => moved ?_ rfl⟩
          simp only [advertise, ne_eq, reduceCtorEq, not_false_eq_true]

theorem keeps_onTimedOut_undone :
    Keeps (Waits p) (LoopPost (Unmoved p) fun _ _ => True) (p.onTimedOut l)
      (⟨⟨some l, .recvFrom⟩, .timedOut⟩ :: log) := by
  have timedOut {l' : Locals} {after : Log} (last : lastReceive after = some ⟨l, .timedOut, log⟩) :
      Unmoved p l' after :=
    Unmoved.of_receive last nofun
  refine ⟨waits_of_ne nofun, fun now => ?_⟩
  simp only [Program.done_bind]
  split_ifs
  · exact ⟨waits_of_ne nofun, fun _ => timedOut rfl⟩
  · refine ⟨waits_of_ne nofun, fun healthy => ?_⟩
    simp only [Program.done_bind]
    split
    · exact ⟨waits_of_ne nofun, fun _ => timedOut rfl⟩
    · exact timedOut rfl
  · exact timedOut rfl

theorem keeps_await_undone (undone : Undone p l log) :
    Keeps (Waits p) (LoopPost (Unmoved p) fun _ _ => True) (p.await l) log := by
  refine ⟨waits_of_ne nofun, fun _ => ⟨waits_of_ne nofun, fun now => ⟨waits_of_ne nofun, ?_⟩⟩⟩
  intro timed
  cases timed with
  | false => trivial
  | true =>
      refine ⟨?_, fun heard => ?_⟩
      · rintro _ ⟨⟩
        exact undone
      · cases heard with
        | datagram data => exact keeps_onDatagram_undone data
        | timedOut => exact keeps_onTimedOut_undone
        | failed => trivial

theorem keeps_turnLoop_undone (unmoved : Unmoved p l log) :
    Keeps (Waits p) (LoopPost (Unmoved p) fun _ _ => True) (p.turnLoop l) log := by
  refine ⟨waits_of_ne nofun, fun stop => ?_⟩
  cases stop with
  | true => exact keeps_stopped_undone
  | false => exact (keeps_checkHealth_undone unmoved).bind fun _ _ undone => keeps_await_undone undone

end Params

/-! ## Every run -/

theorem waits_always {program : Prog (Locals ⊕ Exit)}
    (run : Runs p.turnLoop p.startLoop program log) : History.Always (Waits p) log :=
  run.always Params.keeps_startLoop_undone fun _ _ unmoved => Params.keeps_turnLoop_undone unmoved

end

/--
In every run, no datagram is handled while a passed deadline starves, if and only
if datagrams that leave the timers alone do not follow one another.
-/
theorem attends_iff_lulls (p : Params) (program : Prog (Locals ⊕ Exit)) (log : Log)
    (run : Runs p.turnLoop p.startLoop program log) :
    log.Admitted p.attends ↔ log.Admitted p.lulls := by
  unfold Params.attends Params.lulls
  rw [admitted_ofDatagrams, admitted_ofDatagrams]
  constructor
  · intro attended l data past suffix receive last passes same
    have ⟨first, heard, _, leaves⟩ := passes
    have waits := waits_always run _ _ suffix l rfl
    obtain ⟨deadline, unacted⟩ := waits receive first last heard leaves
    rw [← Bool.not_eq_true]
    intro second
    exact attended l data past suffix ⟨receive, last, passes, same, deadline same, second, unacted⟩
  · intro lull l data past suffix
    rintro ⟨receive, last, passes, same, _, leaves, _⟩
    cases (lull l data past suffix receive last passes same).symm.trans leaves

/-- Datagrams that are no advertisements come one right after the other: the owner never advertises. -/
theorem flood_starves :
    ¬ ∀ (p : Params) (program : Prog (Locals ⊕ Exit)) (log : Log),
      Runs p.turnLoop p.startLoop program log → log.Admitted p.attends := by
  intro attended
  have run : Runs owner.turnLoop owner.startLoop _ _ :=
    Runs.play (answers (.datagram [])) 21 .start
  have second := admitted_ofDatagrams.mp (attended owner _ _ run) _ [] _ (List.suffix_refl _)
  exact second ⟨_, rfl, ⟨[], rfl, Nat.le_refl 0, rfl⟩, rfl, rfl, rfl, rfl⟩

/-- Timeouts and datagrams that are no advertisements, in turn. -/
def answersInTurn (past : Log) (call : Call) : call.Ans :=
  match call with
  | ⟨_, .recvFrom⟩ =>
      if (lastReceive past).any fun receive => receive.heard = .timedOut then .datagram []
      else .timedOut
  | call => answers .timedOut past call

def inTurn : Log :=
  (play owner.turnLoop answersInTurn 60 owner.startLoop []).2

def isDatagram : Event Call Call.Ans → Bool
  | ⟨⟨_, .recvFrom⟩, .datagram _⟩ => true
  | _ => false

/-- The receive before a datagram timed out. -/
def timedOutBefore : Log → Bool
  | [] => true
  | event :: past =>
      !isDatagram event || (lastReceive past).any fun receive => receive.heard = .timedOut

theorem lulls_inTurn : inTurn.Admitted owner.lulls := by
  have each : inTurn.tails.all timedOutBefore = true := by decide +kernel
  refine admitted_ofDatagrams.mpr fun l data past suffix receive last passes _ => ?_
  have before := List.all_eq_true.mp each _ ((List.mem_tails _ _).mpr suffix)
  obtain ⟨first, heard, _⟩ := passes
  simp [timedOutBefore, isDatagram, last, heard] at before

-- Three datagrams that leave the timers alone, the owner's advertisement sent in between.
theorem attends_iff_lulls_inTurn :
    (inTurn.Admitted owner.attends ↔ inTurn.Admitted owner.lulls) ∧ inTurn.Admitted owner.lulls ∧
      inTurn.countP isDatagram = 3 :=
  ⟨attends_iff_lulls owner _ _ (Runs.play answersInTurn 60 .start), lulls_inTurn, by decide +kernel⟩

/-! ## A receive that times out -/

/-- The clock does not go back. -/
def steady : Promise Call Call.Ans :=
  fun call answer past => clock past ≤ clock (⟨call, answer⟩ :: past)

/-- Where the last receive timed out on a deadline that had passed, its action was carried out. -/
def Served (p : Params) (log : Log) : Prop :=
  ∀ receive, lastReceive log = some receive → receive.heard = .timedOut →
    receive.locals.deadline ≤ clock receive.past → p.acted log = true

theorem ne_init_of_backup {vr : VirtualRouter} (backup : vr.state = .backup) : vr.state ≠ .init := by
  simp only [backup, ne_eq, reduceCtorEq, not_false_eq_true]

theorem ne_init_of_master {vr : VirtualRouter} (master : vr.state = .master) : vr.state ≠ .init := by
  simp only [master, ne_eq, reduceCtorEq, not_false_eq_true]

theorem ne_master_of_backup {vr : VirtualRouter} (backup : vr.state = .backup) :
    vr.state ≠ .master := by
  simp only [backup, ne_eq, reduceCtorEq, not_false_eq_true]

/-- A router in its role, that has served what timed out. -/
structure Serving (p : Params) (l : Locals) (log : Log) : Prop where
  started : l.vr.state ≠ .init
  served : Served p log

section

open Program (Under)

variable {p : Params} {l : Locals} {log : Log}

theorem Served.none (unheard : lastReceive log = none) : Served p log := by
  intro receive last
  cases unheard.symm.trans last

theorem Served.of_datagram {l : Locals} {data : List UInt8} {past : Log}
    (last : lastReceive log = some ⟨l, .datagram data, past⟩) : Served p log := by
  intro receive same heard
  obtain rfl := Option.some.inj (last.symm.trans same)
  cases heard

namespace Params

theorem under_startLoop :
    Under steady (LoopPost (Serving p) fun _ _ => True) p.startLoop [] := by
  intro found _
  cases found with
  | none => trivial
  | some ifaceIp =>
      intro opened _
      cases opened with
      | false => trivial
      | true =>
          intro healthy _ _ _ nextAdvert _ now _
          simp only [Program.done_bind]
          rcases p.router.start_state healthy with ⟨master, _⟩ | backup
          · rw [if_pos master]
            exact fun _ _ => ⟨ne_init_of_master master, Served.none rfl⟩
          · rw [if_neg (ne_master_of_backup backup)]
            exact ⟨ne_init_of_backup backup, Served.none rfl⟩

theorem under_checkHealth (started : l.vr.state ≠ .init) :
    Under steady (fun l _ => l.vr.state ≠ .init) (p.checkHealth l) log := by
  intro healthy _
  simp only [Program.done_bind]
  rcases l.vr.onHealth_cases healthy with ⟨_, _, resigns⟩ | ⟨_, same⟩
  · simp only [resigns, if_true]
    exact fun _ _ _ _ _ _ => nofun
  · simp only [same]
    exact started

theorem under_onDatagram (started : l.vr.state ≠ .init) (data : List UInt8) :
    Under steady (LoopPost (Serving p) fun _ _ => True) (p.onDatagram l data)
      (⟨⟨some l, .recvFrom⟩, .datagram data⟩ :: log) := by
  have unchanged : Serving p l (⟨⟨some l, .recvFrom⟩, .datagram data⟩ :: log) :=
    ⟨started, Served.of_datagram rfl⟩
  simp only [onDatagram]
  cases parseAdvertisement data p.vrid with
  | none => exact unchanged
  | some a =>
      dsimp only
      split
      · exact unchanged
      · rcases l.vr.onAdvertisement_cases a.priority a.src l.ifaceIp a.intervalCentis with
          ⟨centis, demoted, _, backup⟩ | ⟨ignored, same⟩ | ⟨centis, reset, _, backup⟩ |
            ⟨advertise, _, same⟩
        · simp only [demoted]
          exact fun _ _ _ _ => ⟨ne_init_of_backup backup, Served.of_datagram rfl⟩
        · simp only [ignored, same]
          exact unchanged
        · simp only [reset]
          exact fun _ _ => ⟨ne_init_of_backup backup, Served.of_datagram rfl⟩
        · simp only [advertise, same]
          exact fun _ _ => ⟨started, Served.of_datagram rfl⟩

theorem carriesOut_sendTo (master : l.vr.state = .master) (sent : Bool) :
    p.carriesOut (⟨⟨some l, .sendTo (p.packet l p.priority)⟩, sent⟩ :: log) = true :=
  decide_eq_true ⟨master, rfl⟩

theorem carriesOut_healthy (backup : l.vr.state = .backup) (healthy : Bool) (reading : Instant) :
    p.carriesOut (⟨⟨some l, .healthy⟩, healthy⟩ :: ⟨⟨some l, .now⟩, reading⟩ :: log) = true :=
  decide_eq_true backup

/-- The clock is read again, and the deadline has passed all the more. -/
theorem under_onTimedOut (started : l.vr.state ≠ .init) :
    Under steady (LoopPost (Serving p) fun _ _ => True) (p.onTimedOut l)
      (⟨⟨some l, .recvFrom⟩, .timedOut⟩ :: log) := by
  intro now later
  have later : clock log ≤ now := later
  simp only [Program.done_bind]
  split_ifs with advertises elapsed
  · intro sent _
    refine ⟨started, fun receive last heard passed => ?_⟩
    exact Bool.or_eq_true_iff.mpr (.inl (carriesOut_sendTo advertises.1 sent))
  · intro healthy _
    have asked : p.acted (⟨⟨some l, .healthy⟩, healthy⟩ :: ⟨⟨some l, .now⟩, now⟩ ::
        ⟨⟨some l, .recvFrom⟩, .timedOut⟩ :: log) = true :=
      Bool.or_eq_true_iff.mpr (.inl (carriesOut_healthy elapsed.1 healthy now))
    simp only [Program.done_bind]
    rcases l.vr.onMasterDownTimeout_cases healthy with ⟨_, _, taken, takes, master⟩ | stays
    · simp only [takes, if_true]
      intro _ _
      exact ⟨ne_init_of_master master, fun _ _ _ _ => asked⟩
    · simp only [stays]
      exact ⟨started, fun _ _ _ _ => asked⟩
  · refine ⟨started, ?_⟩
    rintro _ ⟨⟩ _ passed
    have due : l.deadline ≤ now := Nat.le_trans passed later
    unfold Locals.deadline at due
    cases role : l.vr.state with
    | init => exact absurd role started
    | master =>
        rw [if_pos role] at due
        exact absurd ⟨role, due⟩ advertises
    | backup =>
        rw [if_neg (ne_master_of_backup role)] at due
        exact absurd ⟨role, due⟩ elapsed

theorem under_turnLoop (started : l.vr.state ≠ .init) :
    Under steady (LoopPost (Serving p) fun _ _ => True) (p.turnLoop l) log := by
  intro stop _
  cases stop with
  | true =>
      change Under steady _ (p.stopped l) _
      unfold stopped
      split
      · exact fun _ _ _ _ => trivial
      · trivial
  | false =>
      refine (under_checkHealth started).bind fun l log started => ?_
      intro _ _ now _ timed _
      cases timed with
      | false => trivial
      | true =>
          intro heard _
          cases heard with
          | datagram data => exact under_onDatagram started data
          | timedOut => exact under_onTimedOut started
          | failed => trivial

end Params

end

/-- A receive that times out when the deadline had passed before it carries its action out. -/
theorem timedOut_acts (p : Params) (l : Locals) (log : Log)
    (run : Runs p.turnLoop p.startLoop (.done (.inl l)) log) (advances : log.Admitted steady)
    (receive : Receive) (last : lastReceive log = some receive)
    (heard : receive.heard = .timedOut)
    (passed : receive.locals.deadline ≤ clock receive.past) : p.acted log = true := by
  have serving : Serving p l log :=
    run.under Params.under_startLoop (fun _ _ serving => Params.under_turnLoop serving.started)
      advances
  exact serving.served receive last heard passed

end StormLb.Vrrp
