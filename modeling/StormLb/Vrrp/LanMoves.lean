import StormLb.Vrrp.Lan

/-!
# What the moves on a LAN keep

Every move of a loop, and everything that drifts, keeps what holds throughout.
What drifts, and what one loop does, leaves to the others what they rely on.
-/

namespace StormLb.Vrrp

open StormLb.Net StormLb.Effects StormLb.Heartbeat

namespace Lan

variable {ι : Type} {lan : Lan ι}

theorem pace_le_gap : lan.pace ≤ lan.gap := by
  grind [gap, slack]

variable [DecidableEq ι] {w after : Wire ι} {i : ι}

/-- Another's due date is the one it was. -/
theorem inTime_act (sound : lan.Sound w) {span : Instant} (j : ι) (moment : Instant)
    (due : (w.act i span).due j = some moment) : w.now ≤ moment := by
  by_cases own : j = i
  · subst own
    obtain rfl := Option.some.inj ((w.act_due_self span).symm.trans due)
    exact Nat.le_add_right _ _
  · exact sound.inTime j moment ((w.act_due_of_ne own span).symm.trans due)

theorem sound_act (sound : lan.Sound w) {span : Instant}
    (room : i = lan.lead → w.now + span ≤ lan.nextBy w) : lan.Sound (w.act i span) :=
  { sound with
    inTime := inTime_act sound
    awake := by
      by_cases own : i = lan.lead
      · subst own
        exact ⟨_, w.act_due_self span, room rfl⟩
      · obtain ⟨moment, due, before⟩ := sound.awake
        exact ⟨moment, (w.act_due_of_ne (Ne.symm own) span).trans due, before⟩ }

theorem sound_rest (sound : lan.Sound w) (other : i ≠ lan.lead) : lan.Sound (w.rest i) :=
  { sound with
    inTime := by
      intro j moment due
      by_cases own : j = i
      · subst own
        cases w.rest_due_self.symm.trans due
      · exact sound.inTime j moment ((w.rest_due_of_ne own).symm.trans due)
    awake := by
      obtain ⟨moment, due, before⟩ := sound.awake
      exact ⟨moment, (w.rest_due_of_ne (Ne.symm other)).trans due, before⟩ }

theorem sound_hold (sound : lan.Sound w) : lan.Sound (w.hold lan.lead true) :=
  { sound with
    alone := by
      intro j held
      by_cases own : j = lan.lead
      · exact own
      · exact sound.alone j ((w.hold_of_ne own true).symm.trans held)
    holds := fun _ => w.hold_self true }

/-- The router advertises in time, once it has the VIP. -/
theorem sound_send (sound : lan.Sound w) (held : w.holds lan.lead = true) :
    lan.Sound ((w.send lan.lead lan.advertisement).act lan.lead lan.pace) where
  inTime j moment due := inTime_act sound j moment due
  awake := ⟨_, Wire.act_due_self _ _, Nat.add_le_add_left pace_le_gap _⟩
  paced := by
    obtain ⟨moment, due, before⟩ := sound.awake
    exact ⟨(sound.inTime _ _ due).trans before, sound.paced⟩
  sent packet member := by
    rcases List.mem_cons.mp member with rfl | older
    · exact ⟨rfl, Nat.le_refl _, rfl⟩
    · exact sound.sent packet older
  underWay j packet member := by
    change packet ∈ (w.send lan.lead lan.advertisement).underWay j at member
    by_cases own : j = lan.lead
    · subst own
      rw [w.send_self] at member
      exact absurd rfl (sound.underWay _ packet member).2.1
    · rw [w.send_of_ne own] at member
      rcases List.mem_cons.mp member with rfl | older
      · exact ⟨List.mem_cons_self, own, Nat.le_add_right _ _⟩
      · obtain ⟨sent, _, fresh⟩ := sound.underWay j packet older
        exact ⟨List.mem_cons_of_mem _ sent, own, fresh⟩
  unread j arrival member := by
    obtain ⟨other, sent⟩ := sound.unread j arrival member
    exact ⟨other, fun packet same => (sent packet same).imp_left (List.mem_cons_of_mem _)⟩
  noise := sound.noise
  arrived j earlier known := List.mem_cons_of_mem _ (sound.arrived j earlier known)
  reaches j other packet member := by
    change packet ∈ (w.send lan.lead lan.advertisement).underWay j ∨ _
    rw [w.send_of_ne other]
    rcases List.mem_cons.mp member with rfl | older
    · exact .inl List.mem_cons_self
    · exact (sound.reaches j other packet older).imp_left (List.mem_cons_of_mem _)
  alone := sound.alone
  holds _ := held

theorem sound_read (sound : lan.Sound w) {arrival : Arrival ι} {later : List (Arrival ι)}
    (unread : w.unread i = arrival :: later) : lan.Sound (w.read i later) := by
  have fewer : ∀ j, (w.read i later).unread j ⊆ w.unread j := by
    intro j
    by_cases own : j = i
    · subst own
      rw [w.read_self, unread]
      exact List.subset_cons_self _ _
    · rw [w.read_of_ne own]
      exact List.Subset.refl _
  exact { sound with
    unread := fun j other member => sound.unread j other (fewer j member)
    noise := fun j data member => sound.noise j data (fewer j member) }

/-- A packet that has left: it arrived, or is lost. -/
theorem sound_drop (sound : lan.Sound w) {packet : Packet ι} {earlier : Instant}
    (arrived : w.arrived i = some earlier) (soon : packet.sentAt ≤ earlier + lan.window) :
    lan.Sound (w.drop i packet) := by
  have fewer : ∀ j, (w.drop i packet).underWay j ⊆ w.underWay j := by
    intro j
    by_cases own : j = i
    · subst own
      rw [w.drop_self]
      exact List.erase_subset
    · rw [w.drop_of_ne own]
      exact List.Subset.refl _
  refine { sound with
    underWay := fun j other member => sound.underWay j other (fewer j member)
    reaches := ?_ }
  intro j other sent member
  rcases sound.reaches j other sent member with underWay | reached
  · by_cases own : j = i
    · subst own
      by_cases same : sent = packet
      · subst same
        exact .inr ⟨earlier, arrived, soon⟩
      · rw [w.drop_self]
        exact .inl ((List.mem_erase_of_ne same).mpr underWay)
    · rw [w.drop_of_ne own]
      exact .inl underWay
  · exact .inr reached

theorem sound_queue (sound : lan.Sound w) {arrival : Arrival ι} (other : i ≠ lan.lead)
    (sent : ∀ packet, arrival = .packet packet → packet ∈ w.sent ∧ w.arrived i ≠ none)
    (unknown : ∀ data, arrival = .noise data →
      parseAdvertisement data (lan.params lan.lead).vrid = none) :
    lan.Sound (w.queue i arrival) := by
  have either : ∀ j, ∀ found ∈ (w.queue i arrival).unread j,
      found ∈ w.unread j ∨ j = i ∧ found = arrival := by
    intro j found member
    by_cases own : j = i
    · subst own
      rw [w.queue_self] at member
      exact (List.mem_append.mp member).imp_right fun last => ⟨rfl, List.mem_singleton.mp last⟩
    · rw [w.queue_of_ne own] at member
      exact .inl member
  refine { sound with unread := ?_, noise := ?_ }
  · intro j found member
    rcases either j found member with before | ⟨rfl, rfl⟩
    · exact sound.unread j found before
    · exact ⟨other, sent⟩
  · intro j data member
    rcases either j _ member with before | ⟨_, same⟩
    · exact sound.noise j data before
    · exact unknown data same.symm

omit [DecidableEq ι] in
theorem le_mark {sentAt earlier : Instant} (arrived : w.arrived i = some earlier) :
    earlier ≤ max sentAt ((w.arrived i).getD sentAt) := by
  rw [arrived]
  exact Nat.le_max_right _ _

theorem arrived_mark {sentAt : Instant} {j : ι} (arrived : w.arrived j ≠ none) :
    (w.mark i sentAt).arrived j ≠ none := by
  by_cases own : j = i
  · subst own
    rw [w.mark_self]
    nofun
  · rw [w.mark_of_ne own]
    exact arrived

theorem sound_mark (sound : lan.Sound w) {sentAt : Instant} (sent : sentAt ∈ w.times) :
    lan.Sound (w.mark i sentAt) := by
  refine { sound with unread := ?_, arrived := ?_, reaches := ?_ }
  · intro j arrival member
    obtain ⟨other, waits⟩ := sound.unread j arrival member
    exact ⟨other, fun packet same => (waits packet same).imp_right arrived_mark⟩
  · intro j earlier known
    by_cases own : j = i
    · subst own
      rw [w.mark_self] at known
      obtain rfl := Option.some.inj known
      rcases Nat.le_total sentAt ((w.arrived j).getD sentAt) with less | more
      · rw [Nat.max_eq_right less]
        cases before : w.arrived j with
        | none => exact sent
        | some older => exact sound.arrived j older before
      · rw [Nat.max_eq_left more]
        exact sent
    · rw [w.mark_of_ne own] at known
      exact sound.arrived j earlier known
  · intro j other packet member
    refine (sound.reaches j other packet member).imp_right ?_
    rintro ⟨earlier, known, soon⟩
    by_cases own : j = i
    · subst own
      exact ⟨_, w.mark_self sentAt, soon.trans (Nat.add_le_add_right (le_mark known) _)⟩
    · exact ⟨earlier, (w.mark_of_ne own sentAt).trans known, soon⟩

theorem sound_drifts (sound : lan.Sound w) (drifts : lan.Drifts w after) : lan.Sound after := by
  cases drifts with
  | @pass later onward inTime arrives =>
      exact { sound with
        inTime := inTime
        sent := fun packet member =>
          have ⟨by_, before, bytes⟩ := sound.sent packet member
          ⟨by_, before.trans onward, bytes⟩
        underWay := fun j packet member =>
          have ⟨sent, other, _⟩ := sound.underWay j packet member
          ⟨sent, other, arrives j packet member⟩ }
  | @arrive i packet underWay =>
      obtain ⟨sent, other, _⟩ := sound.underWay i packet underWay
      -- It counts as arrived before it counts as gone.
      have marked := sound_mark (i := i) sound (List.mem_map_of_mem sent)
      have dropped := sound_drop marked (w.mark_self _)
        ((Nat.le_max_left _ _).trans (Nat.le_add_right _ lan.window))
      have queued : lan.Sound
          (((w.mark i packet.sentAt).drop i packet).queue i (.packet packet)) := by
        refine sound_queue dropped other ?_ nofun
        rintro _ ⟨⟩
        refine ⟨sent, ?_⟩
        rw [show ((w.mark i packet.sentAt).drop i packet).arrived i = _ from w.mark_self _]
        nofun
      exact queued
  | lose underWay arrived soon => exact sound_drop sound arrived soon
  | noise other unknown =>
      refine sound_queue sound other nofun ?_
      rintro _ ⟨⟩
      exact unknown

/-! ## What the routers make of it -/

omit [DecidableEq ι] in
/-- What arrives does not bring a deadline nearer. -/
theorem Hears.mono {deadline : Instant} (hears : lan.Hears i deadline w)
    (arrived : after.arrived i = w.arrived i) (unread : w.unread i ⊆ after.unread i) :
    lan.Hears i deadline after := by
  unfold Hears at hears ⊢
  rw [arrived]
  cases known : w.arrived i with
  | none =>
      rw [known] at hears
      exact hears
  | some earlier =>
      rw [known] at hears
      refine hears.imp_right ?_
      rintro ⟨packet, waits, later⟩
      exact ⟨packet, unread waits, later⟩

/-- A packet that arrived is waiting to be read. -/
theorem Hears.arrive {deadline : Instant} (hears : lan.Hears i deadline w) (packet : Packet ι) :
    lan.Hears i deadline ((w.queue i (.packet packet)).mark i packet.sentAt) := by
  have waits : .packet packet ∈ (w.queue i (.packet packet)).unread i := by
    rw [w.queue_self]
    exact List.mem_append_right _ List.mem_cons_self
  unfold Hears at hears ⊢
  rw [Wire.mark_self]
  cases known : w.arrived i with
  | none =>
      refine .inr ⟨packet, waits, ?_⟩
      rw [show (w.queue i (.packet packet)).arrived i = none from known, Option.getD_none, max_self]
  | some earlier =>
      rw [known] at hears
      rw [show (w.queue i (.packet packet)).arrived i = some earlier from known, Option.getD_some]
      rcases Nat.le_total packet.sentAt earlier with older | newer
      · rw [Nat.max_eq_right older]
        refine hears.imp_right ?_
        rintro ⟨last, unread, later⟩
        refine ⟨last, ?_, later⟩
        change _ ∈ (w.queue i (.packet packet)).unread i
        rw [w.queue_self]
        exact List.mem_append_left _ unread
      · rw [Nat.max_eq_left newer]
        exact .inr ⟨packet, waits, Nat.le_refl _⟩

theorem hears_drifts {deadline : Instant} (drifts : lan.Drifts w after)
    (hears : lan.Hears i deadline w) : lan.Hears i deadline after := by
  cases drifts with
  | pass onward inTime arrives => exact hears
  | @arrive j packet underWay =>
      by_cases own : i = j
      · subst own
        exact Hears.arrive (w := w.drop i packet) hears packet
      · refine hears.mono ?_ ?_
        · rw [Wire.mark_of_ne _ own]
          rfl
        · change w.unread i ⊆ ((w.drop j packet).queue j (.packet packet)).unread i
          rw [Wire.queue_of_ne _ own]
          exact List.Subset.refl _
  | lose underWay arrived soon => exact hears
  | @noise j data other unknown =>
      refine hears.mono rfl ?_
      by_cases own : i = j
      · subst own
        rw [w.queue_self]
        exact List.subset_append_left _ _
      · rw [w.queue_of_ne own]
        exact List.Subset.refl _

/-- Nobody relies on what drifts. -/
theorem frame_drifts (i : ι) (drifts : lan.Drifts w after) : lan.Frame i w after where
  now := by
    cases drifts with
    | pass onward inTime arrives => exact onward
    | _ => exact Nat.le_refl _
  due := by cases drifts <;> rfl
  arrived known := by
    cases drifts with
    | arrive underWay => exact arrived_mark known
    | _ => exact known
  hears deadline := hears_drifts drifts
  sent _ := by cases drifts <;> rfl
  holds _ := by cases drifts <;> rfl
  sound sound := sound_drifts sound drifts

omit [DecidableEq ι] in
/-- A router that leaves the others' things alone guarantees what they rely on. -/
theorem guarantees_of (sound : lan.Sound w → lan.Sound after) (now : after.now = w.now)
    (due : ∀ j, j ≠ i → after.due j = w.due j) (arrived : after.arrived = w.arrived)
    (unread : ∀ j, j ≠ i → after.unread j = w.unread j)
    (sent : i ≠ lan.lead → after.sent = w.sent)
    (holds : ∀ j, j ≠ i → after.holds j = w.holds j) : lan.Guarantees i w after where
  sound := sound
  frame j other :=
    { now := Nat.le_of_eq now.symm
      due := due j other
      arrived := fun known => by rwa [arrived]
      hears := fun deadline hears =>
        hears.mono (congrFun arrived j) (unread j other ▸ List.Subset.refl _)
      sent := fun same => sent (by rintro rfl; exact other same)
      holds := fun _ => holds j other
      sound := sound }

theorem guarantees_act (sound : lan.Sound w) {span : Instant}
    (room : i = lan.lead → w.now + span ≤ lan.nextBy w) : lan.Guarantees i w (w.act i span) :=
  guarantees_of (fun _ => sound_act sound room) rfl (fun _ other => w.act_due_of_ne other span) rfl
    (fun _ _ => rfl) (fun _ => rfl) fun _ _ => rfl

end Lan

end StormLb.Vrrp
