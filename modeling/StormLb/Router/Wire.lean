import StormLb.Router.Copying
import StormLb.Router.HeadLimit

/-!
# The router is a wire

However the two streams are cut into reads, a connection is decided the same
way, and what it forwards arrives as it was sent.  One turn of the connection
keeps what was decided and how far either stream was carried; a run in which
nothing fails comes to its end.
-/

namespace StormLb.Router

open StormLb.Effects StormLb.Text

/-! ## The head -/

/-- A request head while it is read, and until the request is forwarded. -/
structure AtHead (scene : Scene) (head : List UInt8) (chosen : Option Choice) (asked : Nat)
    (log : Log) : Prop where
  whole : received .client log = head
  cut : head <+: scene.client
  silent : received .backend log = []
  unwritten : ∀ side, written side log = []
  made : choice log = chosen
  short : log.length ≤ head.length + asked

section

variable {scene : Scene} {head : List UInt8} {chosen : Option Choice} {asked : Nat} {log : Log}

theorem AtHead.later {after : Option Choice} (atHead : AtHead scene head chosen asked log)
    {event : Event Op Op.Ans} (quiet : Quiet event) (made : chosen.or (chosenBy event) = after) :
    AtHead scene head after (asked + 1) (event :: log) := by
  constructor
  · rw [received_cons, (quiet _).1, List.append_nil, atHead.whole]
  · exact atHead.cut
  · rw [received_cons, (quiet _).1, List.append_nil, atHead.silent]
  · intro side
    rw [written_cons, (quiet _).2, List.append_nil, atHead.unwritten]
  · rw [choice_cons, atHead.made, made]
  · have short := atHead.short
    rw [List.length_cons]
    omega

/-- More of the head is read. -/
theorem AtHead.read {bytes : List UInt8} {size : Nat} (some : bytes ≠ [])
    (atHead : AtHead scene head none 0 log)
    (promised : scene.cuts (.read .client size) (.ok bytes) log) :
    AtHead scene (head ++ bytes) none 0 (⟨.read .client size, .ok bytes⟩ :: log) := by
  have next := promised.2.1
  constructor
  · rw [received_cons, atHead.whole]
    rfl
  · rw [← atHead.whole]
    exact next
  · rw [received_cons, atHead.silent]
    rfl
  · intro side
    rw [written_cons, atHead.unwritten]
    rfl
  · rw [choice_cons, atHead.made]
    rfl
  · have short := atHead.short
    have nonempty := List.length_pos_iff.mpr some
    rw [List.length_cons, List.length_append]
    omega

theorem AtHead.limited (atHead : AtHead scene head chosen asked log) (few : asked ≤ 16) :
    log.length ≤ limit log := by
  have short := atHead.short
  rw [limit, atHead.whole, atHead.silent]
  omega

end

/-! ## One turn -/

/-- What a connection ends with. -/
structure Ended (scene : Scene) (front : Front) (tls : Bool) (headEnd : Nat) (exit : Exit)
    (log : Log) : Prop where
  decided : ∀ chosen, choice log = some chosen →
    chosen = (scene.decision front tls (scene.client.take headEnd)).choice
  settled : log.Admitted unfailing →
    choice log = some (scene.decision front tls (scene.client.take headEnd)).choice ∧
      scene.Outcome front tls headEnd (scene.decision front tls (scene.client.take headEnd)) exit
        log ∧
      log.length ≤ limit log

/-- What holds between two turns. -/
def Between (scene : Scene) (front : Front) (tls : Bool) (headEnd : Nat) : Serving → Log → Prop
  | .reading head, log => AtHead scene head none 0 log ∧ findHeadEnd head = none
  | .splicing splice, log =>
      Splicing scene front tls headEnd splice.upstream splice.up splice.down 1 log

abbrev Turned (scene : Scene) (front : Front) (tls : Bool) (headEnd : Nat) :
    Serving ⊕ Exit → Log → Prop :=
  LoopPost (Between scene front tls headEnd) (Ended scene front tls headEnd)

section

variable {scene : Scene} {front : Front} {tls : Bool} {headEnd : Nat} {log : Log}
  {head : List UInt8}

theorem Ended.of_chosen {exit : Exit}
    (chosen : choice log = some (scene.decision front tls (scene.client.take headEnd)).choice)
    (settled : log.Admitted unfailing →
      scene.Outcome front tls headEnd (scene.decision front tls (scene.client.take headEnd)) exit
        log ∧
        log.length ≤ limit log) : Ended scene front tls headEnd exit log :=
  ⟨fun _ made => Option.some.inj (made.symm.trans chosen), fun sound => ⟨chosen, settled sound⟩⟩

/-- A turn without a choice of half. -/
theorem Splicing.idle {upstream : Stream} {up : Up} {down : Down}
    (splicing : Splicing scene front tls headEnd upstream up down 1 log) :
    Splicing scene front tls headEnd upstream up down 0 log := by
  refine ⟨splicing.side, splicing.forwards, splicing.decided, fun sound => ?_⟩
  have copying := splicing.copying sound
  exact { copying with short := (Nat.le_succ _).trans copying.short }

/-- Both halves ended. -/
theorem Splicing.ended {upstream : Stream} {up down : Except String Unit} {due : Nat}
    (splicing : Splicing scene front tls headEnd upstream (.done up) (.done down) due log) :
    Ended scene front tls headEnd ((down.bind fun _ => up).mapError .io) log := by
  refine .of_chosen splicing.decided fun sound => ?_
  have copying := splicing.copying sound
  have fine : up = .ok () := copying.soundUp
  have fine' : down = .ok () := copying.soundDown
  have sent := copying.carriesUp.carried
  have returned := copying.carriesDown.carried
  obtain ⟨backend, forwards⟩ := splicing.forwards
  rw [copying.carriesUp.closed rfl] at sent
  rw [id, copying.carriesDown.closed rfl] at returned
  subst fine fine'
  refine ⟨.delivered rfl ?_ ?_, ?_⟩
  · rw [forwards]
    exact (List.append_nil _).symm.trans returned
  · rw [forwards]
    exact (List.append_nil _).symm.trans sent
  · have short := copying.short
    omega

theorem under_moveUp {splice : Splice} (moves : ∀ result, splice.up ≠ .done result)
    (splicing : Splicing scene front tls headEnd splice.upstream splice.up splice.down 0 log) :
    Program.Under scene.cuts (Turned scene front tls headEnd) splice.moveUp log :=
  (under_stepUp moves splicing).bind fun _ _ moved => moved

theorem under_moveDown {splice : Splice} (moves : ∀ result, splice.down ≠ .done result)
    (splicing : Splicing scene front tls headEnd splice.upstream splice.up splice.down 0 log) :
    Program.Under scene.cuts (Turned scene front tls headEnd) splice.moveDown log :=
  (under_stepDown moves splicing).bind fun _ _ moved => moved

theorem under_splice {splice : Splice}
    (splicing : Splicing scene front tls headEnd splice.upstream splice.up splice.down 1 log) :
    Program.Under scene.cuts (Turned scene front tls headEnd) splice.turn log := by
  unfold Splice.turn
  split
  · rename_i up down upDone downDone
    rw [upDone, downDone] at splicing
    exact splicing.ended
  · rename_i down _ more
    exact under_moveDown (fun result done => more result done) splicing.idle
  · rename_i up _ more
    exact under_moveUp (fun result done => more result done) splicing.idle
  · rename_i moreUp moreDown _
    intro half _
    have chosen : Splicing scene front tls headEnd splice.upstream splice.up splice.down 0
        (⟨.choose, half⟩ :: log) := splicing.later fun _ => ⟨rfl, rfl⟩
    cases half with
    | up => exact under_moveUp moreUp chosen
    | down => exact under_moveDown moreDown chosen

/-! ### Demultiplexing -/

theorem AtHead.loosen {chosen : Option Choice} {asked more : Nat}
    (atHead : AtHead scene head chosen asked log) (few : asked ≤ more) :
    AtHead scene head chosen more log :=
  { atHead with short := atHead.short.trans (Nat.add_le_add_left few _) }

theorem AtHead.counted {chosen : Option Choice} {asked : Nat} (name : String)
    (labels : List (String × String)) (atHead : AtHead scene head chosen asked log) :
    AtHead scene head chosen (asked + 1) (⟨.inc name labels, ()⟩ :: log) :=
  atHead.later (fun _ => ⟨rfl, rfl⟩) (Option.or_none)

/-- The client was answered, or could not be. -/
theorem AtHead.answered {response : List UInt8} {asked : Nat} (few : asked ≤ 15)
    (answers : scene.decision front tls (scene.client.take headEnd) = .answer response)
    (failed : Option String) (atHead : AtHead scene head none asked log) :
    Ended scene front tls headEnd (.ok ()) (⟨.writeAll .client response, failed⟩ :: log) := by
  refine Ended.of_chosen ?_ fun sound => ?_
  · rw [choice_cons, atHead.made, answers]
    rfl
  · obtain ⟨now, _⟩ := History.admitted_cons.mp sound
    have fine : failed = none := now
    subst fine
    refine ⟨.delivered rfl ?_ ?_, ?_⟩
    · rw [written_cons, atHead.unwritten, answers]
      rfl
    · rw [written_cons, atHead.unwritten, answers]
      rfl
    · have short := atHead.short
      rw [limit_write, limit, atHead.whole, List.length_cons]
      omega

theorem under_respond {host code : String} {response : List UInt8} {asked : Nat}
    (few : asked ≤ 14) (atHead : AtHead scene head none asked log)
    (answers : scene.decision front tls (scene.client.take headEnd) = .answer response) :
    Program.Under scene.cuts (Turned scene front tls headEnd) (respond host code response) log := by
  intro _ _ failed _
  exact (atHead.counted _ _).answered (Nat.succ_le_succ few) answers failed

/-- The backend was not reached. -/
theorem AtHead.unreached {backend : Backend} {error : ServeError} {asked : Nat} (few : asked ≤ 16)
    (forwards : scene.decision front tls (scene.client.take headEnd) = .forward backend)
    (why : Unreached front backend log error)
    (atHead : AtHead scene head (some (.dial backend.addr)) asked log) :
    Ended scene front tls headEnd (.error error) log := by
  refine Ended.of_chosen ?_ fun _ => ⟨.unreached backend error forwards rfl why ?_, ?_⟩
  · rw [atHead.made, forwards]
    rfl
  · exact atHead.unwritten
  · exact atHead.limited few

theorem under_failUpstream {host kind : String} {backend : Backend} {error : ServeError}
    {asked : Nat} (few : asked ≤ 14)
    (forwards : scene.decision front tls (scene.client.take headEnd) = .forward backend)
    (why : Unreached front backend log error)
    (atHead : AtHead scene head (some (.dial backend.addr)) asked log) :
    Program.Under scene.cuts (Turned scene front tls headEnd) (failUpstream host kind error) log := by
  intro _ _ _ _
  refine ((atHead.counted _ _).counted _ _).unreached (Nat.add_le_add_right few 2) forwards ?_
  exact (why.later (List.suffix_cons _ _)).later (List.suffix_cons _ _)

/-- The head was sent, and what follows it is to be copied. -/
theorem AtHead.copying {upstream : Stream} {chosen : Option Choice}
    (side : upstream.side = .backend) (within : headEnd ≤ head.length)
    (atHead : AtHead scene head chosen 5 log) :
    Copying scene tls headEnd .reading .first 1
      (⟨.writeAll upstream (Scene.passed tls headEnd head), none⟩ :: log) := by
  have other := ne_client_of_backend side
  have read (source : Side) : received source
      (⟨.writeAll upstream (Scene.passed tls headEnd head), none⟩ :: log) = received source log :=
    List.append_nil _
  constructor
  · constructor
    · rw [read, atHead.whole]
      exact atHead.cut
    · rw [read, atHead.whole, written_cons, atHead.unwritten, writtenBy, if_pos side]
      exact List.append_nil _
    · exact fun ended => absurd ended Bool.false_ne_true
    · intro bytes more reached
      rw [read, atHead.whole] at reached
      exact Scene.passed_append tls (within.trans reached.length_le) more
  · exact trivial
  · constructor
    · rw [read, atHead.silent]
      exact List.nil_prefix
    · rw [read, atHead.silent, written_cons, atHead.unwritten, writtenBy_of_ne other]
      rfl
    · exact fun ended => absurd ended Bool.false_ne_true
    · exact fun _ _ _ => rfl
  · exact trivial
  · have short := atHead.short
    rw [limit_write, limit, atHead.whole, List.length_cons]
    change _ + 4 + 6 + 1 ≤ _
    omega

/-- The head is sent, and copying begins. -/
theorem under_forward {upstream : Stream} {host : String} {backend : Backend}
    (side : upstream.side = .backend) (within : headEnd ≤ head.length)
    (forwards : scene.decision front tls (scene.client.take headEnd) = .forward backend)
    (atHead : AtHead scene head (some (.dial backend.addr)) 5 log) :
    Program.Under scene.cuts (Turned scene front tls headEnd)
      (forward upstream (Scene.passed tls headEnd head) host) log := by
  intro failed _
  have decided : choice (⟨.writeAll upstream (Scene.passed tls headEnd head), failed⟩ :: log) =
      some (scene.decision front tls (scene.client.take headEnd)).choice := by
    rw [choice_cons, atHead.made, forwards]
    rfl
  cases failed with
  | some error =>
      refine Ended.of_chosen decided fun sound => ?_
      obtain ⟨now, _⟩ := History.admitted_cons.mp sound
      exact nomatch now
  | none => exact ⟨side, ⟨backend, forwards⟩, decided, fun _ => atHead.copying side within⟩

theorem under_forwardTls {host name : String} {backend : Backend} (within : headEnd ≤ head.length)
    (https : backend.tls = some name)
    (forwards : scene.decision front tls (scene.client.take headEnd) = .forward backend)
    (atHead : AtHead scene head (some (.dial backend.addr)) 3 log) :
    Program.Under scene.cuts (Turned scene front tls headEnd)
      (front.forwardTls (Scene.passed tls headEnd head) host backend.addr name) log := by
  intro loaded _
  have asked : AtHead scene head (some (.dial backend.addr)) 4 (⟨.upstream, loaded⟩ :: log) :=
    atHead.later (fun _ => ⟨rfl, rfl⟩) rfl
  cases loaded with
  | none =>
      exact under_failUpstream (by omega) forwards (.noConnector https List.mem_cons_self) asked
  | some connector =>
      simp only [Program.done_bind]
      split
      · rename_i bad
        exact asked.unreached (by omega) forwards (.badName https List.mem_cons_self bad)
      · intro shaken _
        have shook : AtHead scene head (some (.dial backend.addr)) 5 (⟨.handshake _ _, shaken⟩ :: _) :=
          asked.later (fun _ => ⟨rfl, rfl⟩) rfl
        cases shaken with
        | connected => exact under_forward rfl within forwards shook
        | failed error =>
            exact under_failUpstream (by omega) forwards (.tls https List.mem_cons_self) shook
        | timedOut =>
            exact under_failUpstream (by omega) forwards (.tlsTimedOut https List.mem_cons_self) shook

theorem under_dial {host : String} {backend : Backend} (within : headEnd ≤ head.length)
    (forwards : scene.decision front tls (scene.client.take headEnd) = .forward backend)
    (atHead : AtHead scene head none 2 log) :
    Program.Under scene.cuts (Turned scene front tls headEnd)
      (front.dial tls head headEnd host backend) log := by
  intro failed _
  have dialled : AtHead scene head (some (.dial backend.addr)) 3
      (⟨.connect backend.addr, failed⟩ :: log) := atHead.later (fun _ => ⟨rfl, rfl⟩) rfl
  cases failed with
  | some error =>
      exact under_failUpstream (by omega) forwards (.connect List.mem_cons_self) dialled
  | none =>
      simp only [Program.done_bind]
      cases https : backend.tls with
      | none => exact under_forward rfl within forwards (dialled.loosen (by omega))
      | some name => exact under_forwardTls within https forwards dialled

theorem under_redirects (request : List UInt8) (atHead : AtHead scene head none 1 log) :
    Program.Under scene.cuts
      (fun redirected after =>
        redirected = scene.redirected front tls request ∧ AtHead scene head none 2 after)
      (front.redirects tls request) log := by
  refine (scene.under_redirects front tls request log).weaken ?_
  rintro redirected after ⟨same, rfl | rfl⟩
  · exact ⟨same, atHead.loosen (by omega)⟩
  · exact ⟨same, atHead.later (fun _ => ⟨rfl, rfl⟩) rfl⟩

/-- A request that is not redirected. -/
theorem under_route {host : String} (within : headEnd ≤ head.length)
    (request : head.take headEnd = scene.client.take headEnd)
    (named : hostOf (scene.client.take headEnd) = some host)
    (stays : scene.redirected front tls (scene.client.take headEnd) = none)
    (atHead : AtHead scene head none 2 log) :
    Program.Under scene.cuts (Turned scene front tls headEnd)
      (front.route tls head headEnd host (scene.table host)) log := by
  cases entry : scene.table host with
  | some backend =>
      refine under_dial within ?_ atHead
      simp only [Scene.decision, named, stays, entry]
  | none =>
      have own : scene.decision front tls (scene.client.take headEnd) =
          .answer (if requestPath (scene.client.take headEnd) = some "/healthz" then alive
            else notFound host) := by
        simp only [Scene.decision, named, stays, entry]
      simp only [Front.route, request]
      split
      · rename_i probed
        rw [if_pos probed] at own
        exact under_respond (by omega) atHead own
      · rename_i other
        rw [if_neg other] at own
        exact under_respond (by omega) atHead own

theorem under_demux (complete : findHeadEnd head = some headEnd)
    (atHead : AtHead scene head none 0 log) :
    Program.Under scene.cuts (Turned scene front tls headEnd) (front.demux tls head headEnd) log := by
  have within := (findHeadEnd_le complete).2
  have request : head.take headEnd = scene.client.take headEnd := by
    obtain ⟨rest, whole⟩ := atHead.cut
    rw [← whole, List.take_append_of_le_length within]
  dsimp only [Front.demux]
  rw [request]
  cases named : hostOf (scene.client.take headEnd) with
  | none =>
      refine under_respond (by omega) atHead ?_
      rw [Scene.decision, named]
  | some host =>
      intro entry looked
      have same : entry = scene.table host := looked
      subst same
      have found : AtHead scene head none 1 (⟨.lookup host, scene.table host⟩ :: log) :=
        atHead.later (fun _ => ⟨rfl, rfl⟩) rfl
      simp only [Program.done_bind]
      have redirects : Program.Under scene.cuts
          (fun redirected after =>
            redirected = scene.redirected front tls (scene.client.take headEnd) ∧
              AtHead scene head none 2 after)
          (front.redirects tls (scene.client.take headEnd)) _ := under_redirects _ found
      refine redirects.bind ?_
      rintro redirected after ⟨same, atHead⟩
      cases goes : scene.redirected front tls (scene.client.take headEnd) with
      | some port =>
          rw [same, goes]
          refine under_respond (by omega) atHead ?_
          simp only [Scene.decision, named, goes]
      | none =>
          rw [same, goes]
          exact under_route within request named goes atHead

theorem under_turn (complete : findHeadEnd scene.client = some headEnd)
    (early : headEnd ≤ 16 * 1024) (serving : Serving)
    (between : Between scene front tls headEnd serving log) :
    Program.Under scene.cuts (Turned scene front tls headEnd) (front.turn tls serving) log := by
  cases serving with
  | splicing splice => exact under_splice between
  | reading head =>
      obtain ⟨atHead, incomplete⟩ := between
      intro answer promised
      match answer with
      | .error error =>
          refine ⟨fun chosen made => ?_, fun sound => ?_⟩
          · rw [choice_cons, atHead.made] at made
            cases made
          · obtain ⟨⟨_, failed⟩, _⟩ := History.admitted_cons.mp sound
            exact nomatch failed
      | .ok [] =>
          have ended := (promised.2.2 rfl).resolve_left (by decide)
          have whole : head = scene.client := atHead.whole.symm.trans ended
          rw [whole, complete] at incomplete
          cases incomplete
      | .ok (b :: bytes) =>
          have read := atHead.read (List.cons_ne_nil b bytes) promised
          simp only [Program.done_bind]
          cases found : findHeadEnd (head ++ b :: bytes) with
          | some here =>
              obtain ⟨rest, whole⟩ := read.cut
              have same := findHeadEnd_append rest found
              rw [whole, complete] at same
              obtain rfl := Option.some.inj same
              exact under_demux found read
          | none =>
              have within := length_lt_of_incomplete read.cut complete found
              dsimp only
              rw [if_neg (by omega)]
              exact ⟨read, found⟩

/-! ## Every run -/

theorem under_serveConn : Program.Under scene.cuts (Turned scene front tls headEnd) serveConn [] :=
  ⟨⟨rfl, List.nil_prefix, rfl, fun _ => rfl, rfl, Nat.le_refl _⟩, rfl⟩

variable {program : Prog (Serving ⊕ Exit)}

theorem under_of_runs (complete : findHeadEnd scene.client = some headEnd)
    (early : headEnd ≤ 16 * 1024) (run : Runs (front.turn tls) serveConn program log)
    (admitted : log.Admitted scene.cuts) :
    Program.Under scene.cuts (Turned scene front tls headEnd) program log :=
  run.under under_serveConn (fun serving _ => under_turn complete early serving) admitted

/-- What the two streams leave room for. -/
def Scene.limit (scene : Scene) : Nat :=
  17 + 4 * (scene.client.length + scene.backend.length)

theorem limit_le (admitted : log.Admitted scene.cuts) : limit log ≤ scene.limit := by
  have client : (received .client log).length ≤ scene.client.length :=
    (Scene.received_cut admitted .client).length_le
  have backend : (received .backend log).length ≤ scene.backend.length :=
    (Scene.received_cut admitted .backend).length_le
  rw [limit, Scene.limit]
  omega

/-- Between two turns, the history is as short as what was read. -/
theorem Between.short {serving : Serving} (between : Between scene front tls headEnd serving log)
    (sound : log.Admitted unfailing) : log.length ≤ limit log := by
  cases serving with
  | reading head => exact between.1.limited (Nat.zero_le _)
  | splicing splice =>
      have short := (between.copying sound).short
      omega

/-- Every turn does something, or is the last. -/
theorem turn_busy (serving : Serving) :
    (∃ op next, front.turn tls serving = .call op next) ∨
      ∃ exit, front.turn tls serving = .done (.inr exit) := by
  cases serving with
  | reading head => exact .inl ⟨_, _, rfl⟩
  | splicing splice =>
      obtain ⟨host, upstream, up, down⟩ := splice
      cases up with
      | done up =>
          cases down with
          | done down => exact .inr ⟨_, rfl⟩
          | _ => exact .inl ⟨_, _, rfl⟩
      | _ =>
          cases down with
          | done down => exact .inl ⟨_, _, rfl⟩
          | _ => exact .inl ⟨_, _, rfl⟩

/-- A run on which nothing fails can be carried on to its end. -/
theorem completes (complete : findHeadEnd scene.client = some headEnd)
    (early : headEnd ≤ 16 * 1024) (run : Runs (front.turn tls) serveConn program log)
    (admitted : log.Admitted (scene.cuts.and unfailing)) :
    ∃ exit after, Runs (front.turn tls) serveConn (.done (.inr exit)) after ∧
      after.Admitted (scene.cuts.and unfailing) ∧ log <:+ after := by
  have answers (op : Op) (history : Log) (whole : history.Admitted (scene.cuts.and unfailing)) :
      ∃ answer, (scene.cuts.and unfailing) op answer history :=
    ⟨scene.answer history op, scene.answer_promised op history whole⟩
  have bounded (serving : Serving) (history : Log)
      (run : Runs (front.turn tls) serveConn (.done (.inl serving)) history)
      (whole : history.Admitted (scene.cuts.and unfailing)) : history.length ≤ scene.limit := by
    obtain ⟨cut, sound⟩ := History.admitted_and.mp whole
    have between : Between scene front tls headEnd serving history :=
      under_of_runs complete early run cut
    exact (between.short sound).trans (limit_le cut)
  exact run.completes answers turn_busy bounded admitted

/-- Whatever was chosen so far was what was to be done. -/
theorem choice_of_runs {chosen : Choice} (complete : findHeadEnd scene.client = some headEnd)
    (early : headEnd ≤ 16 * 1024) (run : Runs (front.turn tls) serveConn program log)
    (admitted : log.Admitted scene.cuts) (made : choice log = some chosen) :
    chosen = (scene.decision front tls (scene.client.take headEnd)).choice := by
  -- What was chosen stays chosen, so it shows at the end of the turn.
  obtain ⟨value, after, ended, admitted', suffix⟩ := run.ends_turn
    (fun op history cut => ⟨scene.answer history op, scene.answer_cuts op history cut⟩) admitted
  have turned := under_of_runs complete early ended admitted'
  have made' := choice_of_suffix suffix made
  cases value with
  | inr exit => exact turned.decided chosen made'
  | inl serving =>
      cases serving with
      | reading head =>
          rw [turned.1.made] at made'
          cases made'
      | splicing splice => exact Option.some.inj (made'.symm.trans turned.decided)

/-- What is carried at every moment, and delivered at the end. -/
structure Wire (scene : Scene) (front : Front) (tls : Bool) (headEnd : Nat)
    (program : Prog (Serving ⊕ Exit)) (log : Log) : Prop where
  decided : ∀ chosen, choice log = some chosen →
    chosen = (scene.decision front tls (scene.client.take headEnd)).choice
  carried : log.Admitted unfailing →
    written .client log <+: scene.toClient (scene.decision front tls (scene.client.take headEnd)) ∧
      written .backend log <+:
        scene.toBackend tls headEnd (scene.decision front tls (scene.client.take headEnd))
  ends : log.Admitted unfailing →
    log.length ≤ scene.limit ∧
      ∃ exit after, Runs (front.turn tls) serveConn (.done (.inr exit)) after ∧
        after.Admitted (scene.cuts.and unfailing) ∧ log <:+ after
  ended : log.Admitted unfailing → ∀ exit, program = .done (.inr exit) →
    choice log = some (scene.decision front tls (scene.client.take headEnd)).choice ∧
      scene.Outcome front tls headEnd (scene.decision front tls (scene.client.take headEnd)) exit
        log

/-- What was delivered, or not, was never more than what was to be. -/
theorem Scene.Outcome.carried {decision : Decision} {exit : Exit}
    (outcome : scene.Outcome front tls headEnd decision exit log) :
    written .client log <+: scene.toClient decision ∧
      written .backend log <+: scene.toBackend tls headEnd decision := by
  cases outcome with
  | delivered ended toClient toBackend =>
      rw [toClient, toBackend]
      exact ⟨List.prefix_refl _, List.prefix_refl _⟩
  | unreached backend error forwards ended why nothing =>
      rw [nothing, nothing]
      exact ⟨List.nil_prefix, List.nil_prefix⟩

theorem wire_of_runs (complete : findHeadEnd scene.client = some headEnd)
    (early : headEnd ≤ 16 * 1024) (run : Runs (front.turn tls) serveConn program log)
    (admitted : log.Admitted scene.cuts) : Wire scene front tls headEnd program log := by
  have settled {exit : Exit} {log : Log}
      (run : Runs (front.turn tls) serveConn (.done (.inr exit)) log)
      (admitted : log.Admitted scene.cuts) : Ended scene front tls headEnd exit log :=
    under_of_runs complete early run admitted
  have finishes (sound : log.Admitted unfailing) :=
    completes complete early run (History.admitted_and.mpr ⟨admitted, sound⟩)
  constructor
  · exact fun chosen made => choice_of_runs complete early run admitted made
  · intro sound
    obtain ⟨exit, after, ended, whole, suffix⟩ := finishes sound
    obtain ⟨cut, sound'⟩ := History.admitted_and.mp whole
    obtain ⟨toClient, toBackend⟩ := ((settled ended cut).settled sound').2.1.carried
    exact ⟨(written_of_suffix .client suffix).trans toClient,
      (written_of_suffix .backend suffix).trans toBackend⟩
  · intro sound
    obtain ⟨exit, after, ended, whole, suffix⟩ := finishes sound
    obtain ⟨cut, sound'⟩ := History.admitted_and.mp whole
    have short := ((settled ended cut).settled sound').2.2
    exact ⟨suffix.length_le.trans (short.trans (limit_le cut)), exit, after, ended, whole, suffix⟩
  · rintro sound exit rfl
    obtain ⟨made, outcome, _⟩ := (settled run admitted).settled sound
    exact ⟨made, outcome⟩

end

/--
The decision is the same however the streams are cut; the bytes arrive as they
were sent, but for the head that is forwarded over TLS; and a head is never kept
for longer than its limit.
-/
theorem router_is_wire (front : Front) (tls : Bool) (program : Prog (Serving ⊕ Exit)) (log : Log)
    (run : Runs (front.turn tls) serveConn program log) :
    (∀ (scene : Scene) (headEnd : Nat), findHeadEnd scene.client = some headEnd →
      headEnd ≤ 16 * 1024 → log.Admitted scene.cuts → Wire scene front tls headEnd program log) ∧
    (log.Admitted sized → Buffered program log) :=
  ⟨fun _ _ complete early admitted => wire_of_runs complete early run admitted,
    buffered_of_runs front run⟩

/-- A listener that redirects plain clients. -/
def redirectingFront : Front where
  redirect := some 443
  nameError _ := none

/-- A request with a body, for a host with a plain backend. -/
def appScene : Scene where
  client := bytesOf "POST / HTTP/1.1\r\nHost: app.test\r\n\r\nbody"
  backend := bytesOf "HTTP/1.1 200 OK\r\n\r\nanswer"
  table host := if host = "app.test" then some { addr := "10.0.0.5:80", tls := none } else none
  certs := 1

/-- The connection to its end, over TLS. -/
def appPlay : Prog (Serving ⊕ Exit) × Log :=
  play (redirectingFront.turn true) appScene.answer 40 serveConn []

theorem router_is_wire_app :
    Wire appScene redirectingFront true 35 appPlay.1 appPlay.2 ∧ Buffered appPlay.1 appPlay.2 ∧
      written .backend appPlay.2 =
        bytesOf "POST / HTTP/1.1\r\nX-Forwarded-Proto: https\r\nHost: app.test\r\n\r\nbody" := by
  have run : Runs (redirectingFront.turn true) serveConn appPlay.1 appPlay.2 :=
    Runs.play appScene.answer 40 .start
  have whole : appPlay.2.Admitted (appScene.cuts.and unfailing) :=
    play_admitted appScene.answer appScene.answer_promised 40 serveConn History.admitted_nil
  have cut := (History.admitted_and.mp whole).1
  obtain ⟨wire, buffered⟩ := router_is_wire redirectingFront true _ _ run
  exact ⟨wire appScene 35 (by decide +kernel) (by decide) cut,
    buffered (Scene.sized_of_cuts cut), by decide +kernel⟩

end StormLb.Router
