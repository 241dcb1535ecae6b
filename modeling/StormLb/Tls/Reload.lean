import StormLb.Tls.Certs

/-!
# One reload

A file that keeps its modification time is the file it was, so what is read under
a stamp that still holds is what stands there.  A reload therefore leaves in each
slot what is accepted of its pair's files, if they stood as they are.
-/

namespace StormLb.Tls

open StormLb.Effects

section

variable {n : Nat} {Cert PrivateKey Signer : Type}

/-! ## How the world moves -/

/-- Every file there is has a modification time that was seen. -/
def World.Tracked (world : World n Cert Signer) : Prop :=
  ∀ path file, world.disk path = some file → file.modified ∈ world.seen path

/-- A later world: a file with a modification time from before is the file from before. -/
structure Follows (world later : World n Cert Signer) : Prop where
  seen : ∀ path time, time ∈ world.seen path → time ∈ later.seen path
  same : ∀ path file, later.disk path = some file → file.modified ∈ world.seen path →
    world.disk path = some file
  tracked : world.Tracked → later.Tracked

theorem Follows.refl (world : World n Cert Signer) : Follows world world :=
  ⟨fun _ _ member => member, fun _ _ here _ => here, id⟩

/-- The files are what they were. -/
theorem Follows.of_eq {world later : World n Cert Signer} (disk : later.disk = world.disk)
    (seen : later.seen = world.seen) : Follows world later where
  seen _ _ member := seen ▸ member
  same _ _ here _ := disk ▸ here
  tracked tracked path file here := seen ▸ tracked path file (disk ▸ here)

theorem Follows.trans {first second third : World n Cert Signer} (one : Follows first second)
    (other : Follows second third) : Follows first third where
  seen path time member := other.seen path time (one.seen path time member)
  same path file here member :=
    one.same path file (other.same path file here (one.seen path _ member)) member
  tracked := other.tracked ∘ one.tracked

/-- A later world with the same slots. -/
structure Evolves (world later : World n Cert Signer) : Prop extends Follows world later where
  loaded : later.loaded = world.loaded

theorem Evolves.refl (world : World n Cert Signer) : Evolves world world :=
  ⟨.refl world, rfl⟩

theorem Evolves.trans {first second third : World n Cert Signer} (one : Evolves first second)
    (other : Evolves second third) : Evolves first third :=
  ⟨one.toFollows.trans other.toFollows, other.loaded.trans one.loaded⟩

section

variable {world later : World n Cert Signer} {path : String}

theorem World.change_disk_of_ne (world : World n Cert Signer) {other : String} (apart : other ≠ path)
    (file : Option File) : (world.change path file).disk other = world.disk other :=
  Function.update_of_ne apart ..

theorem World.change_disk_self (world : World n Cert Signer) (file : Option File) :
    (world.change path file).disk path = file :=
  Function.update_self ..

theorem World.change_seen (world : World n Cert Signer) (file : Option File) (other : String) :
    (world.change path file).seen other =
      (if other = path then file.toList.map File.modified else []) ++ world.seen other := by
  by_cases here : other = path
  · rw [here, if_pos rfl]
    exact Function.update_self ..
  · rw [if_neg here]
    exact Function.update_of_ne here ..

/-- A change is to a new modification time, so what has an old one is as it was. -/
theorem evolves_of_drifts_step (drifted : World.Drifts world later) : Evolves world later := by
  obtain ⟨changed, file, rfl, fresh⟩ := drifted
  refine ⟨⟨?_, ?_, ?_⟩, rfl⟩
  · intro path time member
    rw [World.change_seen]
    exact List.mem_append_right _ member
  · intro path old here member
    by_cases there : path = changed
    · rw [there, World.change_disk_self] at here
      exact absurd (there ▸ member) (fresh old here)
    · rwa [World.change_disk_of_ne world there] at here
  · intro tracked path new here
    rw [World.change_seen]
    by_cases there : path = changed
    · rw [there, World.change_disk_self] at here
      rw [if_pos there, here]
      exact List.mem_append_left _ (List.mem_singleton_self _)
    · rw [World.change_disk_of_ne world there] at here
      exact List.mem_append_right _ (tracked path new here)

theorem evolves_of_drifts (drifted : Relation.ReflTransGen World.Drifts world later) :
    Evolves world later :=
  stable_of_drifts (fun _ _ last before => before.trans (evolves_of_drifts_step last)) drifted
    (.refl world)

/-- A file that is open and still the same was not changed meanwhile. -/
theorem opened_of_drifts (drifted : Relation.ReflTransGen World.Drifts world later)
    (opened : world.opened path = true) {file : File} (here : later.disk path = some file)
    (old : file.modified ∈ world.seen path) : later.opened path = true := by
  induction drifted generalizing file with
  | refl => exact opened
  | @tail middle last before step ih =>
      have evolved := evolves_of_drifts before
      have same := (evolves_of_drifts_step step).same path file here (evolved.seen _ _ old)
      obtain ⟨changed, new, rfl, fresh⟩ := step
      by_cases there : path = changed
      · rw [there, World.change_disk_self] at here
        exact absurd (there ▸ evolved.seen _ _ old) (fresh file here)
      · exact (Function.update_of_ne there ..).trans (ih same old)

/-- Nothing is put into a slot. -/
def Op.Quiet : Op n Cert Signer → Prop
  | .setLoaded .. => False
  | _ => True

/-- What is neither a change nor put into a slot leaves the files and the slots. -/
theorem evolves_of_serves {op : Op n Cert Signer} {answer : op.Ans} (quiet : op.Quiet)
    (served : world.serves op answer = some later) : Evolves world later := by
  have opens (opened : String → Bool) : Evolves world { world with opened } :=
    ⟨.of_eq rfl rfl, rfl⟩
  have notes (errors : Fin n → Option String) : Evolves world { world with errors } :=
    ⟨.of_eq rfl rfl, rfl⟩
  cases op with
  | setLoaded i loaded => exact quiet.elim
  | openFile path =>
      simp only [World.serves, Option.ite_none_right_eq_some, Option.some.injEq] at served
      exact served.2 ▸ opens _
  | setError i error =>
      simp only [World.serves, Option.some.injEq] at served
      exact served ▸ notes _
  | log line =>
      cases served
      exact .refl world
  | inc name labels =>
      cases served
      exact .refl world
  | gaugeSet name value =>
      cases served
      exact .refl world
  | sleep secs =>
      cases served
      exact .refl world
  | _ =>
      simp only [World.serves, Option.ite_none_right_eq_some, Option.some.injEq] at served
      exact served.2 ▸ .refl world

end

/-- Whatever drifts and is answered, the program ends with such a value and world. -/
abbrev Ends {α : Type} (post : α → World n Cert Signer → Prop) (program : Prog n Cert Signer α)
    (world : World n Cert Signer) : Prop :=
  Program.Withstands World.serves World.Drifts post program world

/-- Nothing in the program puts anything into a slot. -/
def QuietProg {α : Type} : Prog n Cert Signer α → Prop
  | .done _ => True
  | .call op next => op.Quiet ∧ ∀ answer, QuietProg (next answer)

theorem ends_of_quiet {α : Type} {program : Prog n Cert Signer α} (quiet : QuietProg program)
    (world : World n Cert Signer) : Ends (fun _ later => Evolves world later) program world := by
  induction program generalizing world with
  | done value => exact fun later drifted => evolves_of_drifts drifted
  | call op next ih =>
      intro later drifted answer after served
      have evolved := (evolves_of_drifts drifted).trans (evolves_of_serves quiet.1 served)
      exact (ih answer (quiet.2 answer) after).weaken fun _ _ more => evolved.trans more

/-! ## Loading -/

/-- As long as the file has the modification time it was asked for, this is what reads from it. -/
def Reads (path : String) (time : Option Nat) (result : Except String (List UInt8))
    (world : World n Cert Signer) : Prop :=
  ∀ file, world.disk path = some file → time = some file.modified → result = .ok file.content

/-- As long as both files have the stamp, this is what is accepted of them. -/
def Accepted (pki : Pki Cert PrivateKey Signer) (pair : CertPair) (stamp : Stamp)
    (result : Except String (Cert × CertifiedKey Cert Signer)) (world : World n Cert Signer) : Prop :=
  ∀ cert key, world.disk pair.certFile = some cert → world.disk pair.keyFile = some key →
    stamp = (some cert.modified, some key.modified) →
      result = pki.accepts pair cert.content key.content

/-- Both modification times were seen. -/
def SeenStamp (pair : CertPair) (stamp : Stamp) (world : World n Cert Signer) : Prop :=
  (∀ time, stamp.1 = some time → time ∈ world.seen pair.certFile) ∧
    ∀ time, stamp.2 = some time → time ∈ world.seen pair.keyFile

section

variable {world later : World n Cert Signer} {pair : CertPair} {stamp : Stamp}
  {pki : Pki Cert PrivateKey Signer}

theorem SeenStamp.follow (seen : SeenStamp pair stamp world) (follows : Follows world later) :
    SeenStamp pair stamp later :=
  ⟨fun time same => follows.seen _ _ (seen.1 time same),
    fun time same => follows.seen _ _ (seen.2 time same)⟩

theorem Reads.follow {path : String} {time : Option Nat} {result : Except String (List UInt8)}
    (reads : Reads path time result world) (seen : ∀ t, time = some t → t ∈ world.seen path)
    (follows : Follows world later) : Reads path time result later :=
  fun file here same => reads file (follows.same path file here (seen _ same)) same

theorem Accepted.follow {result : Except String (Cert × CertifiedKey Cert Signer)}
    (accepted : Accepted pki pair stamp result world) (seen : SeenStamp pair stamp world)
    (follows : Follows world later) : Accepted pki pair stamp result later := by
  intro cert key certHere keyHere same
  refine accepted cert key ?_ ?_ same
  · exact follows.same _ cert certHere (seen.1 _ (congrArg Prod.fst same))
  · exact follows.same _ key keyHere (seen.2 _ (congrArg Prod.snd same))

/-- A file that keeps its modification time is read whole. -/
theorem ends_readFile {path opening reading : String} {time : Option Nat}
    (seen : ∀ t, time = some t → t ∈ world.seen path) :
    Ends (fun result later => Evolves world later ∧ Reads path time result later)
      (readFile path opening reading) world := by
  intro before drifted failed opened served
  have evolved := evolves_of_drifts drifted
  have opens := @evolves_of_serves _ _ _ _ _ (.openFile path) _ trivial served
  simp only [World.serves, Option.ite_none_right_eq_some, Option.some.injEq] at served
  obtain ⟨exists_, rfl⟩ := served
  cases failed with
  | some error =>
      intro later more
      have follows := opens.trans (evolves_of_drifts more)
      refine ⟨evolved.trans follows, fun file here same => ?_⟩
      have there := follows.same path file here (evolved.seen _ _ (seen _ same))
      rw [there] at exists_
      cases exists_
  | none =>
      intro middle more answer after read
      have evolves := (opens.trans (evolves_of_drifts more)).trans
        (@evolves_of_serves _ _ _ _ _ (.readToEnd path) _ trivial read)
      simp only [World.serves, Option.ite_none_right_eq_some, Option.some.injEq] at read
      obtain ⟨whole, rfl⟩ := read
      have reads : ∀ file, middle.disk path = some file → time = some file.modified →
          answer = .ok file.content := by
        intro file here same
        have old := evolved.seen _ _ (seen _ same)
        have open_ := opened_of_drifts more (Function.update_self ..) here old
        have content := whole open_
        rw [here] at content
        cases answer with
        | error error => cases content
        | ok bytes => exact congrArg Except.ok (Option.some.inj content)
      have seenAfter := fun t same => evolves.seen path t (evolved.seen path t (seen t same))
      cases answer with
      | error error =>
          intro later last
          have follows := evolves_of_drifts last
          refine ⟨(evolved.trans evolves).trans follows, fun file here same => ?_⟩
          cases reads file (follows.same path file here (seenAfter _ same)) same
      | ok bytes =>
          intro later last
          have follows := evolves_of_drifts last
          refine ⟨(evolved.trans evolves).trans follows, fun file here same => ?_⟩
          exact reads file (follows.same path file here (seenAfter _ same)) same

/-- A pair whose files keep their modification times is loaded as they are. -/
theorem ends_load (seen : SeenStamp pair stamp world) :
    Ends (fun result later => Evolves world later ∧ Accepted pki pair stamp result later)
      (load pki pair) world := by
  refine (ends_readFile seen.1).bind ?_
  rintro result middle ⟨evolved, reads⟩
  have seenHere := seen.follow evolved.toFollows
  cases result with
  | error error =>
      intro later drifted
      have follows := evolves_of_drifts drifted
      refine ⟨evolved.trans follows, fun cert key certHere _ same => ?_⟩
      cases reads.follow seenHere.1 follows.toFollows cert certHere (congrArg Prod.fst same)
  | ok certBytes =>
      have certRead {later : World n Cert Signer} (follows : Follows middle later) {cert key : File}
          (here : later.disk pair.certFile = some cert)
          (same : stamp = (some cert.modified, some key.modified)) : certBytes = cert.content :=
        Except.ok.inj (reads.follow seenHere.1 follows cert here (congrArg Prod.fst same))
      dsimp only
      cases chained : pki.chain pair certBytes with
      | error error =>
          intro later drifted
          have follows := evolves_of_drifts drifted
          refine ⟨evolved.trans follows, fun cert key certHere _ same => ?_⟩
          rw [Pki.accepts, ← certRead follows.toFollows certHere same, chained]
      | ok found =>
          obtain ⟨leaf, chain⟩ := found
          refine (ends_readFile seenHere.2).bind ?_
          rintro result last ⟨further, keyReads⟩
          have seenLast := seenHere.follow further.toFollows
          cases result with
          | error error =>
              intro later drifted
              have follows := evolves_of_drifts drifted
              refine ⟨(evolved.trans further).trans follows, fun cert key _ keyHere same => ?_⟩
              cases keyReads.follow seenLast.2 follows.toFollows key keyHere (congrArg Prod.snd same)
          | ok keyBytes =>
              intro later drifted
              have follows := evolves_of_drifts drifted
              refine ⟨(evolved.trans further).trans follows, fun cert key certHere keyHere same => ?_⟩
              have keyRead := Except.ok.inj
                (keyReads.follow seenLast.2 follows.toFollows key keyHere (congrArg Prod.snd same))
              rw [Pki.accepts, ← certRead (further.trans follows).toFollows certHere same, chained,
                ← keyRead]

end

end

/-! ## Reloading -/

section

variable {Cert PrivateKey Signer : Type} {pki : Pki Cert PrivateKey Signer} {pairs : List CertPair}
  {start world later : World pairs.length Cert Signer} {i : Fin pairs.length}

/-- What a slot holds is what is accepted of its pair's files, if its stamp is theirs. -/
structure Sound (pki : Pki Cert PrivateKey Signer) (pairs : List CertPair)
    (world : World pairs.length Cert Signer) : Prop where
  tracked : world.Tracked
  seen : ∀ i held, world.loaded i = some held → SeenStamp (pairs.get i) held.stamp world
  current : ∀ i held, world.loaded i = some held →
    Accepted pki (pairs.get i) held.stamp (.ok (held.leaf, held.key)) world

/-- If a pair's files are still those from the start, its slot holds what is accepted of them. -/
def Served (pki : Pki Cert PrivateKey Signer) (pairs : List CertPair)
    (start world : World pairs.length Cert Signer) (i : Fin pairs.length) : Prop :=
  ∀ cert key accepted, world.disk (pairs.get i).certFile = some cert →
    world.disk (pairs.get i).keyFile = some key →
      cert.modified ∈ start.seen (pairs.get i).certFile →
        key.modified ∈ start.seen (pairs.get i).keyFile →
          pki.accepts (pairs.get i) cert.content key.content = .ok accepted →
            ∃ held, world.loaded i = some held ∧ (held.leaf, held.key) = accepted

theorem Sound.evolve (sound : Sound pki pairs world) (evolves : Evolves world later) :
    Sound pki pairs later := by
  refine ⟨evolves.tracked sound.tracked, fun i held here => ?_, fun i held here => ?_⟩
  · rw [evolves.loaded] at here
    exact (sound.seen i held here).follow evolves.toFollows
  · rw [evolves.loaded] at here
    exact (sound.current i held here).follow (sound.seen i held here) evolves.toFollows

theorem Served.follow (served : Served pki pairs start world i) (started : Follows start world)
    (follows : Follows world later) (same : later.loaded i = world.loaded i) :
    Served pki pairs start later i := by
  intro cert key accepted certHere keyHere certOld keyOld accepts
  rw [same]
  refine served cert key accepted ?_ ?_ certOld keyOld accepts
  · exact follows.same _ cert certHere (started.seen _ _ certOld)
  · exact follows.same _ key keyHere (started.seen _ _ keyOld)

/-- What reloading one pair does. -/
structure Reloaded (pki : Pki Cert PrivateKey Signer) (pairs : List CertPair)
    (start world later : World pairs.length Cert Signer) (i : Fin pairs.length) : Prop where
  follows : Follows world later
  sound : Sound pki pairs later
  served : Served pki pairs start later i
  others : ∀ j ≠ i, later.loaded j = world.loaded j

theorem Reloaded.evolve {middle : World pairs.length Cert Signer} (started : Follows start world)
    (reloaded : Reloaded pki pairs start world middle i) (evolves : Evolves middle later) :
    Reloaded pki pairs start world later i where
  follows := reloaded.follows.trans evolves.toFollows
  sound := reloaded.sound.evolve evolves
  served := reloaded.served.follow (started.trans reloaded.follows) evolves.toFollows
    (congrFun evolves.loaded i)
  others j apart := (congrFun evolves.loaded j).trans (reloaded.others j apart)

/-- A world that only evolved, in which the pair is served. -/
theorem Reloaded.of_evolves (sound : Sound pki pairs world) (evolves : Evolves world later)
    (served : Served pki pairs start later i) : Reloaded pki pairs start world later i :=
  ⟨evolves.toFollows, sound.evolve evolves, served, fun j _ => congrFun evolves.loaded j⟩

/-- The stamp of the files at some moment of the reload. -/
structure Stamped (pair : CertPair) (start : World pairs.length Cert Signer) (stamp : Stamp)
    (world : World pairs.length Cert Signer) : Prop where
  seen : SeenStamp pair stamp world
  old : ∀ cert key, world.disk pair.certFile = some cert → world.disk pair.keyFile = some key →
    cert.modified ∈ start.seen pair.certFile → key.modified ∈ start.seen pair.keyFile →
      stamp = (some cert.modified, some key.modified)

theorem Stamped.follow {pair : CertPair} {stamp : Stamp} (stamped : Stamped pair start stamp world)
    (started : Follows start world) (follows : Follows world later) :
    Stamped pair start stamp later := by
  refine ⟨stamped.seen.follow follows, fun cert key certHere keyHere certOld keyOld => ?_⟩
  refine stamped.old cert key ?_ ?_ certOld keyOld
  · exact follows.same _ cert certHere (started.seen _ _ certOld)
  · exact follows.same _ key keyHere (started.seen _ _ keyOld)

/-- What is accepted for the stamp is accepted of files that are still those from the start. -/
theorem Accepted.of_old {pair : CertPair} {stamp : Stamp} {cert key : File}
    {result : Except String (Cert × CertifiedKey Cert Signer)}
    (accepted : Accepted pki pair stamp result world) (stamped : Stamped pair start stamp world)
    (certHere : world.disk pair.certFile = some cert) (keyHere : world.disk pair.keyFile = some key)
    (certOld : cert.modified ∈ start.seen pair.certFile)
    (keyOld : key.modified ∈ start.seen pair.keyFile) :
    result = pki.accepts pair cert.content key.content :=
  accepted cert key certHere keyHere (stamped.old cert key certHere keyHere certOld keyOld)

/-- Asking for both modification times. -/
theorem ends_stat {α : Type} {post : α → World pairs.length Cert Signer → Prop} {pair : CertPair}
    {next : Option Nat → Option Nat → Prog pairs.length Cert Signer α} (tracked : world.Tracked)
    (started : Follows start world)
    (rest : ∀ cert key middle, Evolves world middle → Stamped pair start (cert, key) middle →
      Ends post (next cert key) middle) :
    Ends post (do
      let cert ← ask (.mtime pair.certFile)
      let key ← ask (.mtime pair.keyFile)
      next cert key) world := by
  intro first drifted cert after served
  have evolved := evolves_of_drifts drifted
  simp only [World.serves, Option.ite_none_right_eq_some, Option.some.injEq] at served
  obtain ⟨rfl, rfl⟩ := served
  intro second more key after served
  have further := evolves_of_drifts more
  simp only [World.serves, Option.ite_none_right_eq_some, Option.some.injEq] at served
  obtain ⟨rfl, rfl⟩ := served
  have trackedFirst := evolved.tracked tracked
  have trackedSecond := further.tracked trackedFirst
  refine rest _ _ second (evolved.trans further) ⟨⟨?_, ?_⟩, ?_⟩
  · intro time same
    obtain ⟨file, here, rfl⟩ := Option.map_eq_some_iff.mp same
    exact further.seen _ _ (trackedFirst _ file here)
  · intro time same
    obtain ⟨file, here, rfl⟩ := Option.map_eq_some_iff.mp same
    exact trackedSecond _ file here
  · intro cert key certHere keyHere certOld _
    have before := further.same _ cert certHere ((started.trans evolved.toFollows).seen _ _ certOld)
    rw [before, keyHere]
    rfl

/-- A pair that loaded is put into its slot. -/
theorem ends_keep {stamp : Stamp} {leaf : Cert} {key : CertifiedKey Cert Signer}
    (sound : Sound pki pairs world) (started : Follows start world)
    (stamped : Stamped (pairs.get i) start stamp world)
    (accepted : Accepted pki (pairs.get i) stamp (.ok (leaf, key)) world) :
    Ends (fun _ later => Reloaded pki pairs start world later i)
      (keep (pairs.get i) i stamp leaf key) world := by
  intro first drifted _ after served
  cases served
  intro second more _ after served
  cases served
  have evolved := (evolves_of_drifts drifted).trans (evolves_of_drifts more)
  have soundHere := sound.evolve evolved
  have stampedHere := stamped.follow started evolved.toFollows
  have acceptedHere := accepted.follow stamped.seen evolved.toFollows
  have put : Follows second (second.put i { leaf, key, stamp }) := .of_eq rfl rfl
  refine Program.Withstands.weaken ?_ (ends_of_quiet ?_ _)
  on_goal 2 => exact ⟨trivial, fun _ => ⟨trivial, fun _ => trivial⟩⟩
  intro _ later evolves
  refine Reloaded.evolve started ⟨evolved.toFollows.trans put, ⟨?_, ?_, ?_⟩, ?_, ?_⟩ evolves
  · exact put.tracked soundHere.tracked
  · intro j held here
    by_cases same : j = i
    · subst same
      rw [World.put_loaded_self] at here
      cases here
      exact stampedHere.seen
    · rw [World.put_loaded_of_ne _ same] at here
      exact soundHere.seen j held here
  · intro j held here
    by_cases same : j = i
    · subst same
      rw [World.put_loaded_self] at here
      cases here
      exact acceptedHere
    · rw [World.put_loaded_of_ne _ same] at here
      exact soundHere.current j held here
  · intro cert certKey result certHere keyHere certOld keyOld accepts
    have same := acceptedHere.of_old stampedHere certHere keyHere certOld keyOld
    rw [accepts] at same
    exact ⟨_, World.put_loaded_self .., Except.ok.inj same⟩
  · intro j apart
    exact (World.put_loaded_of_ne _ apart _).trans (congrFun evolved.loaded j)

theorem ends_complain (pair : CertPair) (loaded : Bool) (msg : String) :
    Ends (fun _ later => Evolves world later) (complain pair i loaded msg) world := by
  refine ends_of_quiet ?_ world
  refine ⟨trivial, fun error => ?_⟩
  simp only [Program.done_bind]
  split
  · exact trivial
  · exact ⟨trivial, fun _ => ⟨trivial, fun _ => ⟨trivial, fun _ => trivial⟩⟩⟩

/-- After a reload of the pair, it is served as it was at the start, if it still is. -/
theorem ends_reloadPair (sound : Sound pki pairs world) (started : Follows start world) :
    Ends (fun _ later => Reloaded pki pairs start world later i)
      (reloadPair pki (pairs.get i) i) world := by
  refine ends_stat sound.tracked started fun cert key middle evolved stamped => ?_
  intro last drifted current after served
  have further := evolved.trans (evolves_of_drifts drifted)
  have startedLast := started.trans further.toFollows
  have stampedLast := stamped.follow (started.trans evolved.toFollows)
    (evolves_of_drifts drifted).toFollows
  have soundLast := sound.evolve further
  simp only [World.serves, Option.ite_none_right_eq_some, Option.some.injEq] at served
  obtain ⟨rfl, rfl⟩ := served
  simp only [Program.done_bind]
  split
  · -- The slot has the files' stamp.
    rename_i same
    obtain ⟨held, here, stamp⟩ := Option.map_eq_some_iff.mp same
    intro later more
    have evolves := evolves_of_drifts more
    have served : Served pki pairs start last i := by
      intro certFile keyFile result certHere keyHere certOld keyOld accepts
      have accepted := soundLast.current i held here
      rw [stamp] at accepted
      have same := accepted.of_old stampedLast certHere keyHere certOld keyOld
      rw [accepts] at same
      exact ⟨held, here, Except.ok.inj same⟩
    exact .of_evolves sound (further.trans evolves)
      (served.follow startedLast evolves.toFollows (congrFun evolves.loaded i))
  · refine (ends_load stampedLast.seen).bind ?_
    rintro result loaded ⟨evolves, accepted⟩
    have soundLoaded := soundLast.evolve evolves
    have startedLoaded := startedLast.trans evolves.toFollows
    have stampedLoaded := stampedLast.follow startedLast evolves.toFollows
    have grown := further.trans evolves
    cases result with
    | ok found =>
        obtain ⟨leaf, certified⟩ := found
        refine (ends_keep soundLoaded startedLoaded stampedLoaded accepted).weaken ?_
        rintro _ later ⟨follows, sound, served, others⟩
        exact ⟨grown.toFollows.trans follows, sound, served, fun j apart =>
          (others j apart).trans (congrFun grown.loaded j)⟩
    | error msg =>
        refine (ends_complain _ _ msg).weaken ?_
        intro _ later more
        have served : Served pki pairs start loaded i := by
          intro certFile keyFile result certHere keyHere certOld keyOld accepts
          cases (accepted.of_old stampedLoaded certHere keyHere certOld keyOld).trans accepts
        exact .of_evolves sound (grown.trans more)
          (served.follow startedLoaded more.toFollows (congrFun more.loaded i))

/-- Every pair served, if its files are still those from the start. -/
structure Current (pki : Pki Cert PrivateKey Signer) (pairs : List CertPair)
    (start world : World pairs.length Cert Signer) : Prop where
  follows : Follows start world
  sound : Sound pki pairs world
  served : ∀ i, Served pki pairs start world i

theorem ends_reloadPairs (numbers : List (Fin pairs.length)) (sound : Sound pki pairs world)
    (started : Follows start world) :
    Ends (fun _ later => (Follows start later ∧ Sound pki pairs later) ∧
        (∀ i, Served pki pairs start world i → Served pki pairs start later i) ∧
          ∀ i ∈ numbers, Served pki pairs start later i)
      (reloadPairs pki pairs numbers) world := by
  induction numbers generalizing world with
  | nil =>
      intro later drifted
      have evolves := evolves_of_drifts drifted
      refine ⟨⟨started.trans evolves.toFollows, sound.evolve evolves⟩, fun i served => ?_, ?_⟩
      · exact served.follow started evolves.toFollows (congrFun evolves.loaded i)
      · exact fun i member => absurd member List.not_mem_nil
  | cons i rest ih =>
      refine (ends_reloadPair sound started).bind fun _ middle reloaded => ?_
      refine (ih reloaded.sound (started.trans reloaded.follows)).weaken ?_
      rintro _ later ⟨kept, before, now⟩
      refine ⟨kept, fun j served => before j ?_, List.forall_mem_cons.mpr ⟨before i reloaded.served, now⟩⟩
      by_cases same : j = i
      · exact same ▸ reloaded.served
      · exact served.follow started reloaded.follows (reloaded.others j same)

theorem ends_reload (sound : Sound pki pairs world) (started : Follows start world) :
    Ends (fun _ later => Current pki pairs start later) (reload pki pairs) world := by
  refine (ends_reloadPairs (List.finRange pairs.length) sound started).bind ?_
  rintro _ middle ⟨⟨follows, sound⟩, _, served⟩
  refine Program.Withstands.weaken ?_ (ends_of_quiet ?_ middle)
  on_goal 2 => exact ⟨trivial, fun _ => ⟨trivial, fun _ => trivial⟩⟩
  intro _ later evolves
  refine ⟨follows.trans evolves.toFollows, sound.evolve evolves, fun i => ?_⟩
  exact (served i (List.mem_finRange i)).follow follows evolves.toFollows (congrFun evolves.loaded i)

/-- The world in which a turn ends. -/
abbrev Turned {n : Nat} (holds : World n Cert Signer → Prop) :
    Phase ⊕ Empty → World n Cert Signer → Prop :=
  Sum.elim (fun _ => holds) fun _ _ => True

/-- A turn of the loop is one reload. -/
theorem ends_turn (secs : Nat) (phase : Phase) (sound : Sound pki pairs world)
    (started : Follows start world) :
    Ends (Turned (Current pki pairs start)) (turn pki pairs secs phase) world := by
  have reloads {world : World pairs.length Cert Signer} (sound : Sound pki pairs world)
      (started : Follows start world) :
      Ends (Turned (Current pki pairs start))
        ((reload pki pairs).bind fun _ => .done (.inl .every)) world := by
    refine (ends_reload sound started).bind fun _ middle current => ?_
    intro later drifted
    have evolves := evolves_of_drifts drifted
    exact ⟨current.follows.trans evolves.toFollows, current.sound.evolve evolves, fun i =>
      (current.served i).follow current.follows evolves.toFollows (congrFun evolves.loaded i)⟩
  cases phase with
  | new => exact reloads sound started
  | every =>
      intro later drifted _ after served
      cases served
      have evolves := evolves_of_drifts drifted
      exact reloads (sound.evolve evolves) (started.trans evolves.toFollows)

end

end StormLb.Tls
