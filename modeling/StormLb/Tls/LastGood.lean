import StormLb.Tls.Reload

/-!
# The last good pair

Whatever happens to the files and when, a slot that is loaded stays loaded, holds
what was accepted of its own pair's files, and after a reload during which these
stood as they are, what is accepted of them now.
-/

namespace StormLb.Tls

open StormLb.Effects

/-! ## Every run -/

section

variable {Cert PrivateKey Signer : Type} {pki : Pki Cert PrivateKey Signer} {pairs : List CertPair}
  {secs : Nat}

/-- Where the router and its files are. -/
abbrev Reloading (pairs : List CertPair) (Cert Signer : Type) :=
  Config Unit (Op pairs.length Cert Signer) Op.Ans Phase Empty (World pairs.length Cert Signer)

/-- Between two reloads. -/
def Idle (config : Reloading pairs Cert Signer) : Prop :=
  ∃ phase, config.threads () = .done (.inl phase)

instance (config : Reloading pairs Cert Signer) : Decidable (Idle config) :=
  match here : config.threads () with
  | .done (.inl phase) => .isTrue ⟨phase, here⟩
  | .call _ _ => .isFalse fun ⟨_, idle⟩ => nomatch here.symm.trans idle

/-- Whatever is done leads from a configuration to a later one. -/
abbrev Leads (pki : Pki Cert PrivateKey Signer) (pairs : List CertPair) (secs : Nat)
    (config after : Reloading pairs Cert Signer) : Prop :=
  (system pki pairs secs).Reaches Threads.anySchedule config after

variable {disk : String → Option File} {config after : Reloading pairs Cert Signer}

theorem sound_starting : Sound pki pairs (World.starting disk) := by
  refine ⟨?_, ?_, ?_⟩
  · intro path file here
    have same : disk path = some file := here
    change file.modified ∈ (disk path).toList.map File.modified
    rw [same]
    exact List.mem_singleton_self _
  · intro i held here
    cases here
  · intro i held here
    cases here

theorem turned_of_leads
    (leads : Leads pki pairs secs ((system pki pairs secs).initial (.starting disk)) config) :
    Ends (Turned fun world => Follows (.starting disk) world ∧ Sound pki pairs world)
      (config.threads ()) config.world := by
  induction leads with
  | start =>
      intro later drifted
      have evolves := evolves_of_drifts drifted
      exact ⟨evolves.toFollows, sound_starting.evolve evolves⟩
  | step before _ stepped ih =>
      refine stepped.withstands ?_ ih
      rintro phase world ⟨follows, sound⟩
      refine (ends_turn secs phase sound follows).weaken ?_
      rintro (phase | result) later current
      · exact ⟨current.follows, current.sound⟩
      · exact trivial

/-- Between two reloads, the slots are sound. -/
theorem sound_of_idle
    (leads : Leads pki pairs secs ((system pki pairs secs).initial (.starting disk)) config)
    (idle : Idle config) : Sound pki pairs config.world := by
  have turned := turned_of_leads leads
  obtain ⟨phase, here⟩ := idle
  rw [here] at turned
  exact (turned _ .refl).2

/-- After a moment between two reloads: nothing was done yet, or a reload is on its way. -/
def Onward (pki : Pki Cert PrivateKey Signer) (pairs : List CertPair)
    (config after : Reloading pairs Cert Signer) : Prop :=
  (Idle after ∧ after.histories () = config.histories () ∧ Evolves config.world after.world) ∨
    Ends (Turned (Current pki pairs config.world)) (after.threads ()) after.world

theorem onward_of_leads (idle : Idle config) (sound : Sound pki pairs config.world)
    (leads : Leads pki pairs secs config after) : Onward pki pairs config after := by
  induction leads with
  | start => exact .inl ⟨idle, rfl, .refl _⟩
  | step before _ stepped ih =>
      rcases ih with ⟨⟨phase, here⟩, same, evolves⟩ | withstands
      · cases stepped with
        | @call _ i op next world answer waiting served =>
            cases i
            cases here.symm.trans waiting
        | @turn _ i state looped =>
            cases i
            refine .inr ?_
            dsimp only
            rw [Function.update_self]
            exact ends_turn secs state (sound.evolve evolves) evolves.toFollows
        | drift moved =>
            exact .inl ⟨⟨phase, here⟩, same, evolves.trans (evolves_of_drifts_step moved)⟩
      · refine .inr (stepped.withstands ?_ withstands)
        exact fun phase world current => ends_turn secs phase current.sound current.follows

/-- From between two reloads to between two later ones. -/
theorem current_of_leads (idle : Idle config) (sound : Sound pki pairs config.world)
    (leads : Leads pki pairs secs config after) (idleAfter : Idle after)
    (reloaded : after.histories () ≠ config.histories ()) :
    Current pki pairs config.world after.world := by
  rcases onward_of_leads idle sound leads with ⟨_, same, _⟩ | withstands
  · exact absurd same reloaded
  · obtain ⟨phase, here⟩ := idleAfter
    rw [here] at withstands
    exact withstands _ .refl

/-! ### Slots are never emptied -/

theorem loaded_of_step {who : Option Unit} (stepped : (system pki pairs secs).Step who config after)
    (i : Fin pairs.length) (loaded : (config.world.loaded i).isSome = true) :
    (after.world.loaded i).isSome = true := by
  cases stepped with
  | @call _ _ op next world answer waiting served =>
      have served : config.world.serves op answer = some world := served
      cases op with
      | setLoaded j held =>
          have put : world = config.world.put j held := (Option.some.inj served).symm
          change (world.loaded i).isSome = true
          rw [put]
          by_cases same : i = j
          · rw [same, World.put_loaded_self]
            rfl
          · rwa [World.put_loaded_of_ne _ same]
      | _ =>
          have evolves : Evolves config.world world := by
            refine evolves_of_serves ?_ served
            exact trivial
          change (world.loaded i).isSome = true
          rwa [evolves.loaded]
  | turn looped => exact loaded
  | drift moved =>
      have evolves := evolves_of_drifts_step moved
      dsimp only
      rwa [evolves.loaded]

theorem loaded_of_leads (leads : Leads pki pairs secs config after) (i : Fin pairs.length)
    (loaded : (config.world.loaded i).isSome = true) : (after.world.loaded i).isSome = true := by
  induction leads with
  | start => exact loaded
  | step before _ stepped ih => exact loaded_of_step stepped i ih

theorem count_of_leads (leads : Leads pki pairs secs config after) :
    config.world.count ≤ after.world.count :=
  List.countP_mono_left fun i _ loaded => loaded_of_leads leads i loaded

end

/-! ## What is put into a slot -/

section

variable {Cert PrivateKey Signer : Type} {pki : Pki Cert PrivateKey Signer} {pairs : List CertPair}
  {secs : Nat} {log : Log pairs.length Cert Signer}

/-- Read from the pair's own files, and accepted. -/
def OwnFiles {n : Nat} (pki : Pki Cert PrivateKey Signer) (pair : CertPair)
    (found : Cert × CertifiedKey Cert Signer) (log : Log n Cert Signer) : Prop :=
  ∃ certBytes keyBytes, ⟨.readToEnd pair.certFile, .ok certBytes⟩ ∈ log ∧
    ⟨.readToEnd pair.keyFile, .ok keyBytes⟩ ∈ log ∧
      pki.accepts pair certBytes keyBytes = .ok found

/-- What is put into a slot was accepted of its pair's own files. -/
def PutsOwn (pki : Pki Cert PrivateKey Signer) (pairs : List CertPair) :
    Op pairs.length Cert Signer → Log pairs.length Cert Signer → Prop
  | .setLoaded i held, log => OwnFiles pki (pairs.get i) (held.leaf, held.key) log
  | _, _ => True

theorem OwnFiles.later {n : Nat} {pair : CertPair} {found : Cert × CertifiedKey Cert Signer}
    {past log : Log n Cert Signer} (own : OwnFiles pki pair found past) (suffix : past <:+ log) :
    OwnFiles pki pair found log := by
  obtain ⟨certBytes, keyBytes, cert, key, accepted⟩ := own
  exact ⟨certBytes, keyBytes, suffix.subset cert, suffix.subset key, accepted⟩

theorem keeps_readFile (path opening reading : String) :
    Program.Keeps (PutsOwn pki pairs)
      (fun result after => ∀ bytes, result = .ok bytes → ⟨.readToEnd path, .ok bytes⟩ ∈ after)
      (readFile path opening reading) log := by
  refine ⟨trivial, fun failed => ?_⟩
  cases failed with
  | some error => exact fun bytes same => nomatch same
  | none =>
      refine ⟨trivial, fun answer => ?_⟩
      cases answer with
      | error error => exact fun bytes same => nomatch same
      | ok read =>
          intro bytes same
          cases same
          exact List.mem_cons_self

theorem keeps_load (pair : CertPair) :
    Program.Keeps (PutsOwn pki pairs)
      (fun result after => ∀ found, result = .ok found → OwnFiles pki pair found after)
      (load pki pair) log := by
  refine Program.Keeps.bind (keeps_readFile ..) fun result middle read => ?_
  cases result with
  | error error => exact fun found same => nomatch same
  | ok certBytes =>
      have cert := read certBytes rfl
      dsimp only
      cases chained : pki.chain pair certBytes with
      | error error => exact fun found same => nomatch same
      | ok head =>
          obtain ⟨leaf, chain⟩ := head
          refine Program.Keeps.bind (keeps_readFile ..).grows fun result last ⟨read, suffix⟩ => ?_
          cases result with
          | error error => exact fun found same => nomatch same
          | ok keyBytes =>
              intro found same
              refine ⟨certBytes, keyBytes, suffix.subset cert, read keyBytes rfl, ?_⟩
              rw [Pki.accepts, chained]
              exact same

theorem keeps_reloadPair (i : Fin pairs.length) :
    Program.Keeps (PutsOwn pki pairs) (fun _ _ => True) (reloadPair pki (pairs.get i) i) log := by
  refine ⟨trivial, fun cert => ⟨trivial, fun key => ⟨trivial, fun current => ?_⟩⟩⟩
  simp only [Program.done_bind]
  split
  · exact trivial
  · refine (keeps_load _).bind fun result after own => ?_
    cases result with
    | ok found =>
        obtain ⟨leaf, certified⟩ := found
        refine ⟨trivial, fun _ => ⟨?_, fun _ => ⟨trivial, fun _ => ⟨trivial, fun _ => trivial⟩⟩⟩⟩
        exact (own _ rfl).later (List.suffix_cons _ _)
    | error msg =>
        refine ⟨trivial, fun error => ?_⟩
        simp only [Program.done_bind]
        split
        · exact trivial
        · exact ⟨trivial, fun _ => ⟨trivial, fun _ => ⟨trivial, fun _ => trivial⟩⟩⟩

theorem keeps_reload :
    Program.Keeps (PutsOwn pki pairs) (fun _ _ => True) (reload pki pairs) log := by
  have pairsKept (numbers : List (Fin pairs.length)) (log : Log pairs.length Cert Signer) :
      Program.Keeps (PutsOwn pki pairs) (fun _ _ => True) (reloadPairs pki pairs numbers) log := by
    induction numbers generalizing log with
    | nil => exact trivial
    | cons i rest ih => exact (keeps_reloadPair i).bind fun _ after _ => ih after
  exact (pairsKept _ _).bind fun _ _ _ => ⟨trivial, fun _ => ⟨trivial, fun _ => trivial⟩⟩

theorem keeps_turn (phase : Phase) :
    Program.Keeps (PutsOwn pki pairs) (LoopPost (fun _ _ => True) fun _ _ => True)
      (turn pki pairs secs phase) log := by
  cases phase with
  | new => exact keeps_reload.bind fun _ _ _ => trivial
  | every => exact ⟨trivial, fun _ => keeps_reload.bind fun _ _ _ => trivial⟩

variable {disk : String → Option File} {config : Reloading pairs Cert Signer}

/-- What is in a slot was put there. -/
theorem put_of_loaded
    (leads : Leads pki pairs secs ((system pki pairs secs).initial (.starting disk)) config)
    (i : Fin pairs.length) (held : Loaded Cert Signer) (here : config.world.loaded i = some held) :
    ⟨.setLoaded i held, ()⟩ ∈ config.histories () := by
  induction leads with
  | start => cases here
  | @step config after _ before _ stepped ih =>
      cases stepped with
      | @call _ j op next world answer waiting served =>
          cases j
          rw [Config.advance_histories_self]
          have served : config.world.serves op answer = some world := served
          have inSlot : world.loaded i = some held := here
          have before (same : world.loaded i = config.world.loaded i) :
              ⟨.setLoaded i held, ()⟩ ∈ config.histories () := ih (same ▸ inSlot)
          cases op with
          | setLoaded k put =>
              have world_eq : world = config.world.put k put := (Option.some.inj served).symm
              rw [world_eq] at inSlot before
              by_cases same : i = k
              · rw [same, World.put_loaded_self] at inSlot
                cases inSlot
                rw [same]
                exact List.mem_cons_self
              · exact List.mem_cons_of_mem _ (before (World.put_loaded_of_ne _ same _))
          | _ =>
              have evolves : Evolves config.world world := by
                refine evolves_of_serves ?_ served
                exact trivial
              exact List.mem_cons_of_mem _ (before (congrFun evolves.loaded i))
      | turn looped => exact ih here
      | drift moved =>
          have evolves := evolves_of_drifts_step moved
          exact ih ((congrFun evolves.loaded i).symm.trans here)

theorem ownFiles_of_loaded
    (leads : Leads pki pairs secs ((system pki pairs secs).initial (.starting disk)) config)
    (i : Fin pairs.length) (held : Loaded Cert Signer) (here : config.world.loaded i = some held) :
    OwnFiles pki (pairs.get i) (held.leaf, held.key) (config.histories ()) := by
  have started : Program.Keeps (PutsOwn pki pairs) (LoopPost (fun _ _ => True) fun _ _ => True)
      ((system pki pairs secs).first ()) [] := trivial
  have always : History.Always (PutsOwn pki pairs) (config.histories ()) :=
    (leads.solo ()).always started fun phase _ _ => keeps_turn phase
  obtain ⟨newer, older, split⟩ := List.append_of_mem (put_of_loaded leads i held here)
  have own := always _ older ⟨newer, split.symm⟩
  exact own.later ⟨newer ++ [_], by rw [split, List.append_assoc]; rfl⟩

end

/-! ## The last good pair is kept -/

/-- What never happens to the slots, and what a reload brings. -/
structure KeepsLastGood {Cert PrivateKey Signer : Type} (pki : Pki Cert PrivateKey Signer)
    (pairs : List CertPair) (secs : Nat) (config : Reloading pairs Cert Signer) : Prop where
  kept : ∀ after, Leads pki pairs secs config after →
    (∀ i, (config.world.loaded i).isSome = true → (after.world.loaded i).isSome = true) ∧
      config.world.count ≤ after.world.count
  own : ∀ i held, config.world.loaded i = some held →
    OwnFiles pki (pairs.get i) (held.leaf, held.key) (config.histories ())
  current : Idle config → ∀ after, Leads pki pairs secs config after → Idle after →
    after.histories () ≠ config.histories () →
      ∀ i cert key accepted, config.world.disk (pairs.get i).certFile = some cert →
        config.world.disk (pairs.get i).keyFile = some key →
          after.world.disk (pairs.get i).certFile = some cert →
            after.world.disk (pairs.get i).keyFile = some key →
              pki.accepts (pairs.get i) cert.content key.content = .ok accepted →
                ∃ held, after.world.loaded i = some held ∧ (held.leaf, held.key) = accepted

/-- In every run, from any files. -/
theorem keepsLastGood {Cert PrivateKey Signer : Type} (pki : Pki Cert PrivateKey Signer)
    (pairs : List CertPair) (secs : Nat) (disk : String → Option File)
    (config : Reloading pairs Cert Signer)
    (leads : Leads pki pairs secs ((system pki pairs secs).initial (.starting disk)) config) :
    KeepsLastGood pki pairs secs config := by
  constructor
  · exact fun after onward => ⟨fun i loaded => loaded_of_leads onward i loaded, count_of_leads onward⟩
  · exact fun i held here => ownFiles_of_loaded leads i held here
  · intro idle after onward idleAfter reloaded i cert key accepted certHere keyHere certAfter keyAfter
      accepts
    have sound := sound_of_idle leads idle
    have current := current_of_leads idle sound onward idleAfter reloaded
    exact current.served i cert key accepted certAfter keyAfter (sound.tracked _ cert certHere)
      (sound.tracked _ key keyHere) accepts

/-! ### A renewed pair -/

/-- Certificates and keys that match if they are the same bytes, one to a file. -/
def bytesPki : Pki (List UInt8) (List UInt8) (List UInt8) where
  certs bytes := .ok (if bytes = [] then [] else [bytes])
  privateKey bytes := if bytes = [] then .error "no items found" else .ok bytes
  anySupportedType key := .ok key
  keysMatch key := if key.chain = [key.signer] then .ok () else .error "keys may not be consistent"
  endEntity _ := .ok ()

def onePair : List CertPair :=
  [{ certFile := "a.crt", keyFile := "a.key" }]

/-- The world answers as it is. -/
def World.answer {n : Nat} {Cert Signer : Type} (world : World n Cert Signer) :
    (op : Op n Cert Signer) → op.Ans
  | .mtime path => (world.disk path).map File.modified
  | .openFile path => if (world.disk path).isSome then none else some "No such file or directory"
  | .readToEnd path =>
      match world.disk path with
      | some file => .ok file.content
      | none => .error "Stale file handle"
  | .stampOf i => (world.loaded i).map Loaded.stamp
  | .setLoaded .. => ()
  | .errorOf i => world.errors i
  | .setError .. => ()
  | .count => world.count
  | .log _ => ()
  | .inc .. => ()
  | .gaugeSet .. => ()
  | .sleep _ => ()

/-- The router for a while, its files at rest. -/
def resting (steps : Nat) (config : Reloading onePair (List UInt8) (List UInt8)) :
    Reloading onePair (List UInt8) (List UInt8) :=
  (system bytesPki onePair 30).playSchedule Threads.anySchedule (fun _ => World.answer) config
    (List.replicate steps ())

/-- Started without files. -/
def startedBare : Reloading onePair (List UInt8) (List UInt8) :=
  resting 11 ((system bytesPki onePair 30).initial (.starting fun _ => none))

/-- Then the certificate and the key are written. -/
def written : Reloading onePair (List UInt8) (List UInt8) :=
  { startedBare with
    world := (startedBare.world.change "a.crt" (some ⟨[1], 5⟩)).change "a.key" (some ⟨[1], 6⟩) }

/-- The next reload loads them. -/
theorem keepsLastGood_written : Idle written ∧
    ∃ held, (resting 15 written).world.loaded ⟨0, by decide⟩ = some held ∧
      (held.leaf, held.key) = ([1], { chain := [[1]], signer := [1] }) := by
  have started : Leads bytesPki onePair 30
      ((system bytesPki onePair 30).initial (.starting fun _ => none)) startedBare :=
    Threads.Reaches.playSchedule (fun _ => World.answer) _ .start
  have drifts : Leads bytesPki onePair 30
      ((system bytesPki onePair 30).initial (.starting fun _ => none)) written := by
    refine (started.step trivial (.drift ⟨"a.crt", some ⟨[1], 5⟩, rfl, ?_⟩)).step trivial
      (.drift ⟨"a.key", some ⟨[1], 6⟩, rfl, ?_⟩)
    · decide +kernel
    · decide +kernel
  have reloads : Leads bytesPki onePair 30 written (resting 15 written) :=
    Threads.Reaches.playSchedule (fun _ => World.answer) _ .start
  have keeps := keepsLastGood bytesPki onePair 30 _ written drifts
  have idle : Idle written := by decide +kernel
  refine ⟨idle, keeps.current idle _ reloads ?_ ?_ _ ⟨[1], 5⟩ ⟨[1], 6⟩ _ ?_ ?_ ?_ ?_ ?_⟩
  · decide +kernel
  · intro same
    have longer : ((resting 15 written).histories ()).length ≠ (written.histories ()).length := by
      decide +kernel
    exact longer (congrArg List.length same)
  · decide +kernel
  · decide +kernel
  · decide +kernel
  · decide +kernel
  · rfl

end StormLb.Tls
