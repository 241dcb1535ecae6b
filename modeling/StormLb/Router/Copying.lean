import StormLb.Router.Scene

/-!
# Copying both ways

One step of one half of a forwarded connection carries its own stream on and
leaves the other's where it is, and uses up what the half may still do.
-/

namespace StormLb.Router

open StormLb.Effects StormLb.Text

/-! ## One stream -/

/-- One stream is carried, but for the bytes at hand. -/
structure Carries (scene : Scene) (passed : List UInt8 → List UInt8) (source target : Side)
    (pending : List UInt8) (closed : Bool) (log : Log) : Prop where
  cut : received source log <+: scene.sent source
  carried : written target log ++ pending = passed (received source log)
  closed : closed = true → received source log = scene.sent source
  onward : ∀ bytes more, received source log <+: bytes → passed (bytes ++ more) = passed bytes ++ more

namespace Carries

variable {scene : Scene} {passed : List UInt8 → List UInt8} {source target : Side}
  {pending bytes : List UInt8} {closed : Bool} {log : Log} {stream : Stream} {size : Nat}

/-- What is done elsewhere leaves the stream as it is. -/
theorem later (carries : Carries scene passed source target pending closed log)
    {event : Event Op Op.Ans} (reads : readBy source event = [])
    (writes : writtenBy target event = []) :
    Carries scene passed source target pending closed (event :: log) := by
  have same : received source (event :: log) = received source log := by
    rw [received_cons, reads, List.append_nil]
  refine ⟨same ▸ carries.cut, ?_, same ▸ carries.closed, same ▸ carries.onward⟩
  rw [same, written_cons, writes, List.append_nil]
  exact carries.carried

/-- The next bytes are read. -/
theorem read (carries : Carries scene passed source target [] closed log)
    (here : stream.side = source) (promised : scene.cuts (.read stream size) (.ok bytes) log) :
    Carries scene passed source target bytes false (⟨.read stream size, .ok bytes⟩ :: log) := by
  have more : received source (⟨.read stream size, .ok bytes⟩ :: log) =
      received source log ++ bytes := by
    rw [received_cons, readBy, if_pos here]
  have kept : written target (⟨.read stream size, .ok bytes⟩ :: log) = written target log :=
    List.append_nil _
  have carried := carries.carried
  rw [List.append_nil] at carried
  constructor
  · rw [more]
    exact here ▸ promised.2.1
  · rw [more, kept, carried, carries.onward _ bytes (List.prefix_refl _)]
  · exact fun ended => absurd ended Bool.false_ne_true
  · intro longer rest reached
    rw [more] at reached
    exact carries.onward longer rest ((List.prefix_append _ _).trans reached)

/-- A read of nothing is the end of the stream. -/
theorem ended (carries : Carries scene passed source target [] closed log)
    (here : stream.side = source) (room : 0 < size)
    (promised : scene.cuts (.read stream size) (.ok []) log) :
    Carries scene passed source target [] true (⟨.read stream size, .ok []⟩ :: log) := by
  have again := carries.read here promised
  refine ⟨again.cut, again.carried, fun _ => ?_, again.onward⟩
  rw [received_cons, readBy, ite_self, List.append_nil]
  rcases promised.2.2 rfl with none | whole
  · omega
  · exact here ▸ whole

/-- The bytes at hand are written. -/
theorem write (carries : Carries scene passed source target bytes closed log)
    (there : stream.side = target) :
    Carries scene passed source target [] closed (⟨.writeAll stream bytes, none⟩ :: log) := by
  have same : received source (⟨.writeAll stream bytes, none⟩ :: log) = received source log :=
    List.append_nil _
  refine ⟨same ▸ carries.cut, ?_, same ▸ carries.closed, same ▸ carries.onward⟩
  rw [same, written_cons, writtenBy, if_pos there, List.append_nil]
  exact carries.carried

end Carries

/-! ## Either half -/

def Up.pending : Up → List UInt8
  | .writing bytes => bytes
  | _ => []

def Up.closed : Up → Bool
  | .closing _ => true
  | .done _ => true
  | _ => false

/-- The half did not end with an error. -/
def Up.Sound : Up → Prop
  | .closing result => result = .ok ()
  | .done result => result = .ok ()
  | _ => True

/-- How much the half may still do with no more bytes to read. -/
def Up.left : Up → Nat
  | .reading => 4
  | .writing _ => 6
  | .closing _ => 2
  | .done _ => 0

def Down.pending : Down → List UInt8
  | .writing bytes => bytes
  | _ => []

def Down.closed : Down → Bool
  | .closing => true
  | .done _ => true
  | _ => false

def Down.Sound : Down → Prop
  | .done result => result = .ok ()
  | _ => True

def Down.left : Down → Nat
  | .first => 6
  | .reading => 4
  | .writing _ => 6
  | .closing => 2
  | .done _ => 0

/-- How long a history may be by what was read. -/
def limit (log : Log) : Nat :=
  17 + 4 * ((received .client log).length + (received .backend log).length)

/-- Both halves carry their stream, with so many operations due in this turn. -/
structure Copying (scene : Scene) (tls : Bool) (headEnd : Nat) (up : Up) (down : Down) (due : Nat)
    (log : Log) : Prop where
  carriesUp : Carries scene (Scene.passed tls headEnd) .client .backend up.pending up.closed log
  soundUp : up.Sound
  carriesDown : Carries scene id .backend .client down.pending down.closed log
  soundDown : down.Sound
  short : log.length + up.left + down.left + due ≤ limit log

/-- A forwarded connection, while it is copied. -/
structure Splicing (scene : Scene) (front : Front) (tls : Bool) (headEnd : Nat)
    (upstream : Stream) (up : Up) (down : Down) (due : Nat) (log : Log) : Prop where
  side : upstream.side = .backend
  forwards : ∃ backend, scene.decision front tls (scene.client.take headEnd) = .forward backend
  decided : choice log = some (scene.decision front tls (scene.client.take headEnd)).choice
  copying : log.Admitted unfailing → Copying scene tls headEnd up down due log

section

variable {scene : Scene} {front : Front} {tls : Bool} {headEnd : Nat} {upstream : Stream}
  {up up' : Up} {down down' : Down} {due due' : Nat} {log : Log}

/-- What copying makes of one more event, it does unless the event is a failure. -/
theorem Splicing.moved (splicing : Splicing scene front tls headEnd upstream up down due log)
    {event : Event Op Op.Ans}
    (moved : unfailing event.1 event.2 log → Copying scene tls headEnd up down due log →
      Copying scene tls headEnd up' down' due' (event :: log)) :
    Splicing scene front tls headEnd upstream up' down' due' (event :: log) := by
  refine ⟨splicing.side, splicing.forwards, ?_, fun admitted => ?_⟩
  · rw [choice_cons, splicing.decided, Option.some_or]
  · obtain ⟨now, before⟩ := History.admitted_cons.mp admitted
    exact moved now (splicing.copying before)

theorem limit_quiet {event : Event Op Op.Ans} (quiet : Quiet event) (log : Log) :
    limit (event :: log) = limit log := by
  simp only [limit, received_cons, (quiet _).1, List.append_nil]

theorem limit_write (stream : Stream) (bytes : List UInt8) (failed : Option String) (log : Log) :
    limit (⟨.writeAll stream bytes, failed⟩ :: log) = limit log := by
  simp only [limit, received_cons, readBy, List.append_nil]

theorem limit_read (stream : Stream) (size : Nat) (bytes : List UInt8) (log : Log) :
    limit (⟨.read stream size, .ok bytes⟩ :: log) = limit log + 4 * bytes.length := by
  simp only [limit, received_cons, readBy, List.length_append]
  cases stream.side with
  | client =>
      rw [if_pos rfl, if_neg (by decide), List.length_nil]
      omega
  | backend =>
      rw [if_pos rfl, if_neg (by decide), List.length_nil]
      omega

theorem client_ne_backend : Stream.side .client ≠ .backend :=
  nofun

theorem ne_client_of_backend {stream : Stream} (side : stream.side = .backend) :
    stream.side ≠ .client := by
  rw [side]
  exact nofun

theorem readBy_of_ne {stream : Stream} {side : Side} (other : stream.side ≠ side) (size : Nat)
    (bytes : List UInt8) : readBy side ⟨.read stream size, .ok bytes⟩ = [] :=
  if_neg other

theorem writtenBy_of_ne {stream : Stream} {side : Side} (other : stream.side ≠ side)
    (bytes : List UInt8) : writtenBy side ⟨.writeAll stream bytes, none⟩ = [] :=
  if_neg other

/-- What neither reads nor writes. -/
theorem Copying.later (copying : Copying scene tls headEnd up down (due + 1) log)
    {event : Event Op Op.Ans} (quiet : Quiet event) :
    Copying scene tls headEnd up down due (event :: log) := by
  refine ⟨copying.carriesUp.later (quiet _).1 (quiet _).2, copying.soundUp,
    copying.carriesDown.later (quiet _).1 (quiet _).2, copying.soundDown, ?_⟩
  have short := copying.short
  rw [limit_quiet quiet, List.length_cons]
  omega

theorem Splicing.later (splicing : Splicing scene front tls headEnd upstream up down (due + 1) log)
    {event : Event Op Op.Ans} (quiet : Quiet event) :
    Splicing scene front tls headEnd upstream up down due (event :: log) :=
  splicing.moved fun _ copying => copying.later quiet

/-! ### The half to the backend -/

theorem Copying.upReads {bytes : List UInt8} (some : bytes ≠ [])
    (copying : Copying scene tls headEnd .reading down 0 log)
    (promised : scene.cuts (.read .client copyBuffer) (.ok bytes) log) :
    Copying scene tls headEnd (.writing bytes) down 1
      (⟨.read .client copyBuffer, .ok bytes⟩ :: log) := by
  refine ⟨copying.carriesUp.read rfl promised, trivial,
    copying.carriesDown.later (readBy_of_ne client_ne_backend _ _) rfl, copying.soundDown, ?_⟩
  have short := copying.short
  have nonempty := List.length_pos_iff.mpr some
  simp only [limit_read, List.length_cons, Up.left] at short ⊢
  omega

theorem Copying.upEnds (copying : Copying scene tls headEnd .reading down 0 log)
    (promised : scene.cuts (.read .client copyBuffer) (.ok []) log) :
    Copying scene tls headEnd (.closing (.ok ())) down 1
      (⟨.read .client copyBuffer, .ok []⟩ :: log) := by
  refine ⟨copying.carriesUp.ended rfl (by decide) promised, rfl,
    copying.carriesDown.later (readBy_of_ne client_ne_backend _ _) rfl, copying.soundDown, ?_⟩
  have short := copying.short
  simp only [limit_read, List.length_cons, Up.left] at short ⊢
  omega

theorem Copying.upWrites {bytes : List UInt8} (side : upstream.side = .backend)
    (copying : Copying scene tls headEnd (.writing bytes) down 0 log) :
    Copying scene tls headEnd .reading down 1 (⟨.writeAll upstream bytes, none⟩ :: log) := by
  have other := ne_client_of_backend side
  refine ⟨copying.carriesUp.write side, trivial,
    copying.carriesDown.later rfl (writtenBy_of_ne other _), copying.soundDown, ?_⟩
  have short := copying.short
  simp only [limit_write, List.length_cons, Up.left] at short ⊢
  omega

theorem Copying.upCloses {result : Except String Unit}
    (copying : Copying scene tls headEnd (.closing result) down 0 log) :
    Copying scene tls headEnd (.done result) down 1 (⟨.shutdown upstream, ()⟩ :: log) := by
  refine ⟨copying.carriesUp.later rfl rfl, copying.soundUp, copying.carriesDown.later rfl rfl,
    copying.soundDown, ?_⟩
  have short := copying.short
  rw [limit_quiet fun _ => ⟨rfl, rfl⟩, List.length_cons]
  simp only [Up.left] at short ⊢
  omega

theorem under_stepUp (moves : ∀ result, up ≠ .done result)
    (splicing : Splicing scene front tls headEnd upstream up down 0 log) :
    Program.Under scene.cuts
      (fun up after => Splicing scene front tls headEnd upstream up down 1 after)
      (stepUp upstream up) log := by
  cases up with
  | reading =>
      intro answer promised
      match answer with
      | .error error =>
          exact splicing.moved fun ⟨_, failed⟩ _ => nomatch failed
      | .ok [] => exact splicing.moved fun _ copying => copying.upEnds promised
      | .ok (b :: bytes) =>
          exact splicing.moved fun _ copying => copying.upReads (List.cons_ne_nil _ _) promised
  | writing bytes =>
      intro failed _
      cases failed with
      | some error => exact splicing.moved fun sound _ => nomatch sound
      | none => exact splicing.moved fun _ copying => copying.upWrites splicing.side
  | closing result =>
      intro _ _
      exact splicing.moved fun _ copying => copying.upCloses
  | done result => exact absurd rfl (moves result)

/-! ### The half to the client -/

/-- Either read of the half to the client. -/
theorem Copying.downReads {bytes : List UInt8} {size : Nat} (some : bytes ≠ [])
    (side : upstream.side = .backend) (unread : down.pending = [])
    (copying : Copying scene tls headEnd up down 0 log)
    (promised : scene.cuts (.read upstream size) (.ok bytes) log)
    (room : 7 + due ≤ down.left + 4) :
    Copying scene tls headEnd up (.writing bytes) due
      (⟨.read upstream size, .ok bytes⟩ :: log) := by
  have other := ne_client_of_backend side
  have carries := copying.carriesDown
  rw [unread] at carries
  refine ⟨copying.carriesUp.later (readBy_of_ne other _ _) rfl, copying.soundUp,
    carries.read side promised, trivial, ?_⟩
  have short := copying.short
  have nonempty := List.length_pos_iff.mpr some
  rw [limit_read, List.length_cons]
  change _ + 6 + _ ≤ _
  omega

theorem Copying.downEnds {size : Nat} (side : upstream.side = .backend) (some : 0 < size)
    (unread : down.pending = []) (copying : Copying scene tls headEnd up down 0 log)
    (promised : scene.cuts (.read upstream size) (.ok []) log) (room : 3 + due ≤ down.left) :
    Copying scene tls headEnd up .closing due (⟨.read upstream size, .ok []⟩ :: log) := by
  have other := ne_client_of_backend side
  have carries := copying.carriesDown
  rw [unread] at carries
  refine ⟨copying.carriesUp.later (readBy_of_ne other _ _) rfl, copying.soundUp,
    carries.ended side some promised, trivial, ?_⟩
  have short := copying.short
  rw [limit_read, List.length_cons]
  change _ + 2 + _ ≤ _
  omega

theorem Copying.downWrites {bytes : List UInt8}
    (copying : Copying scene tls headEnd up (.writing bytes) 0 log) :
    Copying scene tls headEnd up .reading 1 (⟨.writeAll .client bytes, none⟩ :: log) := by
  refine ⟨copying.carriesUp.later rfl (writtenBy_of_ne client_ne_backend _), copying.soundUp,
    copying.carriesDown.write rfl, trivial, ?_⟩
  have short := copying.short
  simp only [limit_write, List.length_cons, Down.left] at short ⊢
  omega

theorem Copying.downCloses (copying : Copying scene tls headEnd up .closing 0 log) :
    Copying scene tls headEnd up (.done (.ok ())) 1 (⟨.shutdown .client, ()⟩ :: log) := by
  refine ⟨copying.carriesUp.later rfl rfl, copying.soundUp, copying.carriesDown.later rfl rfl,
    rfl, ?_⟩
  have short := copying.short
  rw [limit_quiet fun _ => ⟨rfl, rfl⟩, List.length_cons]
  simp only [Down.left] at short ⊢
  omega

theorem under_recordFirst {host : String} {first : Option (List UInt8)}
    (splicing : Splicing scene front tls headEnd upstream up down (due + 2) log) :
    Program.Under scene.cuts
      (fun _ after => Splicing scene front tls headEnd upstream up down due after)
      (recordFirst host first) log := by
  cases first with
  | some bytes =>
      intro _ _ _ _
      exact (splicing.later fun _ => ⟨rfl, rfl⟩).later fun _ => ⟨rfl, rfl⟩
  | none =>
      intro _ _ _ _
      exact (splicing.later fun _ => ⟨rfl, rfl⟩).later fun _ => ⟨rfl, rfl⟩

theorem under_stepDown {host : String} (moves : ∀ result, down ≠ .done result)
    (splicing : Splicing scene front tls headEnd upstream up down 0 log) :
    Program.Under scene.cuts
      (fun down after => Splicing scene front tls headEnd upstream up down 1 after)
      (stepDown host upstream down) log := by
  cases down with
  | first =>
      intro answer promised
      match answer with
      | .error error =>
          have read : Splicing scene front tls headEnd upstream up (.done (.error error)) 3
              (⟨.read upstream (16 * 1024), .error error⟩ :: log) :=
            splicing.moved fun ⟨_, failed⟩ _ => nomatch failed
          exact (under_recordFirst read).bind fun _ _ recorded => recorded
      | .ok [] =>
          have read : Splicing scene front tls headEnd upstream up .closing 3
              (⟨.read upstream (16 * 1024), .ok []⟩ :: log) :=
            splicing.moved fun _ copying =>
              copying.downEnds splicing.side (by decide) rfl promised (Nat.le_refl _)
          exact (under_recordFirst read).bind fun _ _ recorded => recorded
      | .ok (b :: bytes) =>
          have read : Splicing scene front tls headEnd upstream up (.writing (b :: bytes)) 3
              (⟨.read upstream (16 * 1024), .ok (b :: bytes)⟩ :: log) :=
            splicing.moved fun _ copying =>
              copying.downReads (List.cons_ne_nil _ _) splicing.side rfl promised (Nat.le_refl _)
          exact (under_recordFirst read).bind fun _ _ recorded => recorded
  | reading =>
      intro answer promised
      match answer with
      | .error error => exact splicing.moved fun ⟨_, failed⟩ _ => nomatch failed
      | .ok [] =>
          exact splicing.moved fun _ copying =>
            copying.downEnds splicing.side (by decide) rfl promised (Nat.le_refl _)
      | .ok (b :: bytes) =>
          exact splicing.moved fun _ copying =>
            copying.downReads (List.cons_ne_nil _ _) splicing.side rfl promised (Nat.le_refl _)
  | writing bytes =>
      intro failed _
      cases failed with
      | some error => exact splicing.moved fun sound _ => nomatch sound
      | none => exact splicing.moved fun _ copying => copying.downWrites
  | closing =>
      intro _ _
      exact splicing.moved fun _ copying => copying.downCloses
  | done result => exact absurd rfl (moves result)

end

end StormLb.Router
