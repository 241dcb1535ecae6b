import StormLb.Effects.Ledger
import StormLb.Metrics.Words

/-!
# Guards

A gauge that is only moved by guards counts the threads that hold one of it,
over every interleaving: each thread makes one guard at most, and drops only
that.
-/

namespace StormLb.Metrics

open StormLb.Effects

/-- What an operation does with a guard. -/
inductive Handling where
  | makes (name : String) (l : List (List Char × List Char)) (guard : ActiveGuard)
  | drops (guard : ActiveGuard)

/-- Whether a thread made its guard, and whether it holds it. -/
inductive Held where
  | nothing
  | holds (key : Key) (guard : ActiveGuard)
  | dropped (key : Key) (guard : ActiveGuard)

/-- The series and the guard, once made. -/
def Held.made : Held → Option (Key × ActiveGuard)
  | .nothing => none
  | .holds key guard | .dropped key guard => some (key, guard)

def Held.step : Held → Handling → Option Held
  | .nothing, .makes name l guard => some (.holds (name, labels l) guard)
  | .holds key guard, .drops live => if live = guard then some (.dropped key guard) else none
  | _, _ => none

section

variable {Op : Type} {Ans : Op → Type} (handling : Event Op Ans → Option Handling)

/-- Where a thread is with its guard, while it handles one as it should. -/
def heldOf : History Op Ans → Option Held
  | [] => some .nothing
  | event :: past =>
      match handling event with
      | none => heldOf past
      | some act => (heldOf past).bind fun held => held.step act

/-- What an operation adds to a gauge. -/
def guardShare (key : Key) (event : Event Op Ans) : BitVec 64 :=
  match handling event with
  | some (.makes name l _) => if (name, labels l) = key then 1 else 0
  | some (.drops guard) => if (guard.name, guard.key) = key then -1 else 0
  | none => 0

variable {handling}

theorem heldOf_of_none {event : Event Op Ans} (aside : handling event = none)
    (past : History Op Ans) : heldOf handling (event :: past) = heldOf handling past := by
  rw [heldOf, aside]

theorem heldOf_of_some {event : Event Op Ans} {act : Handling} (acts : handling event = some act)
    (past : History Op Ans) : heldOf handling (event :: past) =
      (heldOf handling past).bind fun held => held.step act := by
  rw [heldOf, acts]

/-- A thread that makes a guard had none. -/
theorem heldOf_makes {event : Event Op Ans} {name : String} {l : List (List Char × List Char)}
    {guard : ActiveGuard} {past : History Op Ans} {held : Held}
    (acts : handling event = some (.makes name l guard))
    (at_ : heldOf handling (event :: past) = some held) :
    heldOf handling past = some .nothing ∧ held = .holds (name, labels l) guard := by
  rw [heldOf_of_some acts] at at_
  obtain ⟨before, was, stepped⟩ := Option.bind_eq_some_iff.mp at_
  cases before with
  | nothing => exact ⟨was, (Option.some.inj stepped).symm⟩
  | _ => cases stepped

/-- A thread that drops a guard held it. -/
theorem heldOf_drops {event : Event Op Ans} {live : ActiveGuard} {past : History Op Ans}
    {held : Held} (acts : handling event = some (.drops live))
    (at_ : heldOf handling (event :: past) = some held) :
    ∃ key, heldOf handling past = some (.holds key live) ∧ held = .dropped key live := by
  rw [heldOf_of_some acts] at at_
  obtain ⟨before, was, stepped⟩ := Option.bind_eq_some_iff.mp at_
  cases before with
  | holds key guard =>
      obtain ⟨rfl, dropped⟩ := Option.ite_none_right_eq_some.mp stepped
      exact ⟨key, was, (Option.some.inj dropped).symm⟩
  | _ => cases stepped

/-- A guard was made where there is one, or was one. -/
theorem made_iff {log : History Op Ans} {held : Held} (at_ : heldOf handling log = some held) :
    held.made.isSome = true ↔
      ∃ event ∈ log, ∃ name l guard, handling event = some (.makes name l guard) := by
  induction log generalizing held with
  | nil =>
      cases at_
      simp [Held.made]
  | cons event past ih =>
      rw [List.exists_mem_cons_iff]
      cases acts : handling event with
      | none =>
          rw [heldOf_of_none acts] at at_
          simpa using ih at_
      | some act =>
          cases act with
          | makes name l guard =>
              obtain ⟨_, rfl⟩ := heldOf_makes acts at_
              simp [Held.made]
          | drops live =>
              obtain ⟨key, was, rfl⟩ := heldOf_drops acts at_
              simpa [Held.made] using ih was

/-- What a thread has added to a gauge, by where it is with its guard. -/
def Held.worth (key : Key) : Held → BitVec 64
  | .holds of_ _ => if of_ = key then 1 else 0
  | _ => 0

/-- A thread adds one to a gauge while it holds a guard of it. -/
theorem total_guardShare {log : History Op Ans} {held : Held}
    (at_ : heldOf handling log = some held)
    (own : ∀ key guard, held.made = some (key, guard) → guard = ⟨key.1, key.2⟩) (key : Key) :
    History.total (guardShare handling key) log = held.worth key := by
  induction log generalizing held with
  | nil =>
      cases at_
      rfl
  | cons event past ih =>
      rw [History.total_cons, guardShare]
      cases acts : handling event with
      | none =>
          rw [heldOf_of_none acts] at at_
          rw [ih at_ own]
          exact BitVec.zero_add _
      | some act =>
          cases act with
          | makes name l guard =>
              obtain ⟨was, rfl⟩ := heldOf_makes acts at_
              rw [ih was fun _ _ none_ => nomatch none_]
              exact BitVec.add_zero _
          | drops live =>
              obtain ⟨of_, was, rfl⟩ := heldOf_drops acts at_
              obtain rfl : live = ⟨of_.1, of_.2⟩ := own of_ live rfl
              rw [ih was own]
              change (if of_ = key then (-1 : BitVec 64) else 0) + (if of_ = key then 1 else 0) = 0
              split
              · decide
              · rfl

end

/-! ## Over every interleaving -/

variable {ι Op : Type} [DecidableEq ι] {Ans : Op → Type} {σ α W : Type} {f64 : F64}

/-- Metrics that move on, some gauges left alone. -/
structure Aside (ours : Key → Prop) (m after : Metrics f64) : Prop where
  same : ∀ key, ours key → after.gauge key = m.gauge key
  present : ∀ key : Key, m.gauges[key]?.isSome = true → after.gauges[key]?.isSome = true

/-- How the world of some threads takes what they do with guards. -/
structure Guards (system : Threads ι Op Ans σ α W) (f64 : F64) where
  metrics : W → Metrics f64
  handling : Event Op Ans → Option Handling
  /-- The gauges that are moved by guards only. -/
  ours : Key → Prop
  makes : ∀ {i world op after name l guard} (answer : Ans op),
    system.serves i world op answer = some after →
    handling ⟨op, answer⟩ = some (.makes name l guard) →
      guard = ⟨name, labels l⟩ ∧ metrics after = ((metrics world).active name l).1
  drops : ∀ {i world op after guard} (answer : Ans op),
    system.serves i world op answer = some after →
    handling ⟨op, answer⟩ = some (.drops guard) → metrics after = (metrics world).drop guard
  aside : ∀ {i world op after} (answer : Ans op), system.serves i world op answer = some after →
    handling ⟨op, answer⟩ = none → Aside ours (metrics world) (metrics after)
  drifts : ∀ {world after}, system.drifts world after → Aside ours (metrics world) (metrics after)

namespace Guards

variable {system : Threads ι Op Ans σ α W} (guards : Guards system f64) {world : W}
  {config : Config ι Op Ans σ α W}

/-- Guards that were made are of their series, which are there. -/
def Sound (config : Config ι Op Ans σ α W) : Prop :=
  ∀ i held key guard, heldOf guards.handling (config.histories i) = some held →
    held.made = some (key, guard) →
      guard = ⟨key.1, key.2⟩ ∧ (guards.metrics config.world).gauges[key]?.isSome = true

omit [DecidableEq ι] in
/-- A served operation keeps every gauge there is. -/
theorem present {i : ι} {world after : W} {op : Op} {answer : Ans op}
    (served : system.serves i world op answer = some after) {key : Key}
    (there : (guards.metrics world).gauges[key]?.isSome = true) :
    (guards.metrics after).gauges[key]?.isSome = true := by
  cases acts : guards.handling ⟨op, answer⟩ with
  | none => exact (guards.aside answer served acts).present key there
  | some act =>
      cases act with
      | makes name l guard =>
          rw [(guards.makes answer served acts).2]
          exact present_active_of _ _ _ there
      | drops guard =>
          rw [guards.drops answer served acts]
          exact present_drop _ guard there

theorem sound_of_reaches
    (reached : system.Reaches Threads.anySchedule (system.initial world) config) :
    guards.Sound config := by
  refine reached.invariant ?_ ?_
  · intro i held key guard at_ made
    cases at_
    cases made
  · intro who config after _ sound _ stepped
    cases stepped with
    | turn looped => exact sound
    | drift drifts =>
        intro i held key guard at_ made
        obtain ⟨own, there⟩ := sound i held key guard at_ made
        exact ⟨own, (guards.drifts drifts).present key there⟩
    | @call _ j op next after answer waiting served =>
        intro i held key guard at_ made
        have old (held : Held) (at_ : heldOf guards.handling (config.histories i) = some held)
            (made : held.made = some (key, guard)) :
            guard = ⟨key.1, key.2⟩ ∧ (guards.metrics after).gauges[key]?.isSome = true := by
          obtain ⟨own, there⟩ := sound i held key guard at_ made
          exact ⟨own, guards.present served there⟩
        by_cases same : i = j
        · subst same
          rw [Config.advance_histories_self] at at_
          cases acts : guards.handling ⟨op, answer⟩ with
          | none =>
              rw [heldOf_of_none acts] at at_
              exact old held at_ made
          | some act =>
              cases act with
              | makes name l live =>
                  obtain ⟨_, rfl⟩ := heldOf_makes acts at_
                  cases made
                  obtain ⟨own, grown⟩ := guards.makes answer served acts
                  refine ⟨own, ?_⟩
                  change (guards.metrics after).gauges[(name, labels l)]?.isSome = true
                  rw [grown]
                  exact present_active ..
              | drops live =>
                  obtain ⟨of_, was, rfl⟩ := heldOf_drops acts at_
                  exact old _ was made
        · rw [Config.advance_histories_of_ne _ same] at at_
          exact old held at_ made

/-- Every operation adds its share to a gauge. -/
theorem gauge_served
    (handled : ∀ config, system.Reaches Threads.anySchedule (system.initial world) config →
      ∀ i, (heldOf guards.handling (config.histories i)).isSome = true)
    (reached : system.Reaches Threads.anySchedule (system.initial world) config) {i : ι} {op : Op}
    {next : Ans op → Program Op Ans (σ ⊕ α)} {answer : Ans op} {after : W}
    (waiting : config.threads i = .call op next)
    (served : system.serves i config.world op answer = some after) {key : Key}
    (ours : guards.ours key) :
    (guards.metrics after).gauge key =
      (guards.metrics config.world).gauge key + guardShare guards.handling key ⟨op, answer⟩ := by
  rw [guardShare]
  cases acts : guards.handling ⟨op, answer⟩ with
  | none =>
      rw [(guards.aside answer served acts).same key ours]
      exact (BitVec.add_zero _).symm
  | some act =>
      cases act with
      | makes name l guard =>
          rw [(guards.makes answer served acts).2]
          exact gauge_active ..
      | drops live =>
          rw [guards.drops answer served acts]
          have later := reached.step trivial (.call answer waiting served)
          obtain ⟨held, at_⟩ := Option.isSome_iff_exists.mp (handled _ later i)
          rw [Config.advance_histories_self] at at_
          obtain ⟨of_, was, rfl⟩ := heldOf_drops acts at_
          obtain ⟨rfl, there⟩ := guards.sound_of_reaches reached i _ of_ live was rfl
          exact gauge_drop there key

/--
A gauge of the threads is the number of those that hold a guard of it, when each
handles its guard as it should.
-/
theorem counts
    (reached : system.Reaches Threads.anySchedule (system.initial world) config)
    (handled : ∀ config, system.Reaches Threads.anySchedule (system.initial world) config →
      ∀ i, (heldOf guards.handling (config.histories i)).isSome = true)
    (key : Key) (ours : guards.ours key) (nothing : (guards.metrics world).gauge key = 0) :
    ∃ those : Finset ι,
      (∀ i, i ∈ those ↔
        ∃ guard, heldOf guards.handling (config.histories i) = some (.holds key guard)) ∧
      (guards.metrics config.world).gauges[key]?.getD 0 = Int64.ofNat those.card := by
  have total (i : ι) : ∃ held, heldOf guards.handling (config.histories i) = some held ∧
      History.total (guardShare guards.handling key) (config.histories i) = held.worth key := by
    obtain ⟨held, at_⟩ := Option.isSome_iff_exists.mp (handled config reached i)
    refine ⟨held, at_, total_guardShare at_ (fun of_ guard made => ?_) key⟩
    exact (guards.sound_of_reaches reached i held of_ guard at_ made).1
  have one (i : ι)
      (holds : ∃ guard, heldOf guards.handling (config.histories i) = some (.holds key guard)) :
      History.total (guardShare guards.handling key) (config.histories i) = 1 := by
    obtain ⟨guard, at_⟩ := holds
    obtain ⟨held, is, total⟩ := total i
    rw [at_] at is
    cases is
    exact total.trans (if_pos rfl)
  have none_ (i : ι)
      (free : ¬ ∃ guard, heldOf guards.handling (config.histories i) = some (.holds key guard)) :
      History.total (guardShare guards.handling key) (config.histories i) = 0 := by
    obtain ⟨held, is, total⟩ := total i
    rw [total]
    cases held with
    | holds of_ guard =>
        refine if_neg ?_
        rintro rfl
        exact free ⟨guard, is⟩
    | _ => rfl
  have idle (i : ι) (silent : config.histories i = []) :
      ¬ ∃ guard, heldOf guards.handling (config.histories i) = some (.holds key guard) := by
    rintro ⟨guard, at_⟩
    rw [silent] at at_
    cases at_
  obtain ⟨those, members, card⟩ := reached.counts (fun world => (guards.metrics world).gauge key)
    (fun _ => guardShare guards.handling key) _ nothing
    (fun config i op next answer after before waiting served =>
      guards.gauge_served handled before waiting served ours)
    (fun before after drifts => (guards.drifts drifts).same key ours) idle one none_
  exact ⟨those, members, Int64.toBitVec_inj.mp (card.trans Int64.toBitVec_ofNat'.symm)⟩

end Guards

end StormLb.Metrics
