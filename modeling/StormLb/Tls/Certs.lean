import Mathlib.Data.List.FinRange
import StormLb.Effects.Drift

/-!
# The router's certificates

`Certs` as programs over the files and the slots: `reload` compares each pair's
modification times with those of its slot and loads the pair if they differ.  The
files change at any moment, also while they are read, but never back to a
modification time they had before.
-/

namespace StormLb.Tls

open StormLb.Effects

/-- The certificate chain, leaf first, and its key. -/
structure CertPair where
  certFile : String
  keyFile : String
  deriving DecidableEq, Repr

structure CertifiedKey (Cert Signer : Type) where
  chain : List Cert
  signer : Signer
  deriving DecidableEq, Repr

/-- What the PEM, TLS and certificate libraries make of what they are given, or their error. -/
structure Pki (Cert PrivateKey Signer : Type) where
  /-- `CertificateDer::pem_file_iter` -/
  certs : List UInt8 → Except String (List Cert)
  /-- `PrivateKeyDer::from_pem_file` -/
  privateKey : List UInt8 → Except String PrivateKey
  anySupportedType : PrivateKey → Except String Signer
  keysMatch : CertifiedKey Cert Signer → Except String Unit
  /-- `EndEntityCert::try_from` -/
  endEntity : Cert → Except String Unit

/-- The modification times of a pair's files, where there are any. -/
abbrev Stamp := Option Nat × Option Nat

structure Loaded (Cert Signer : Type) where
  leaf : Cert
  key : CertifiedKey Cert Signer
  stamp : Stamp

/-! ## What a reload asks for -/

/-- The operations on the files and on the slots of `n` pairs. -/
inductive Op (n : Nat) (Cert Signer : Type) where
  | mtime (path : String)
  | openFile (path : String)
  /-- The rest of the file that was opened last under this path. -/
  | readToEnd (path : String)
  /-- The stamp of a slot, if it is loaded. -/
  | stampOf (i : Fin n)
  | setLoaded (i : Fin n) (loaded : Loaded Cert Signer)
  | errorOf (i : Fin n)
  | setError (i : Fin n) (error : Option String)
  | count
  | log (line : String)
  | inc (name : String) (labels : List (String × String))
  | gaugeSet (name : String) (value : Nat)
  | sleep (secs : Nat)

section

variable {n : Nat} {Cert PrivateKey Signer : Type}

abbrev Op.Ans : Op n Cert Signer → Type
  | .mtime _ => Option Nat
  | .openFile _ => Option String
  | .readToEnd _ => Except String (List UInt8)
  | .stampOf _ => Option Stamp
  | .setLoaded .. => Unit
  | .errorOf _ => Option String
  | .setError .. => Unit
  | .count => Nat
  | .log _ => Unit
  | .inc .. => Unit
  | .gaugeSet .. => Unit
  | .sleep _ => Unit

abbrev Prog (n : Nat) (Cert Signer : Type) := Program (Op n Cert Signer) Op.Ans

abbrev Log (n : Nat) (Cert Signer : Type) := History (Op n Cert Signer) Op.Ans

def ask (op : Op n Cert Signer) : Prog n Cert Signer op.Ans :=
  .call op .done

@[simp] theorem ask_eq (op : Op n Cert Signer) : ask op = .call op .done :=
  rfl

/-! ## Loading a pair -/

namespace Pki

variable (pki : Pki Cert PrivateKey Signer) (pair : CertPair)

/-- The chain in a certificate file, and its leaf. -/
def chain (bytes : List UInt8) : Except String (Cert × List Cert) :=
  match pki.certs bytes with
  | .error error => .error s!"parsing {pair.certFile}: {error}"
  | .ok [] => .error s!"{pair.certFile}: no certificate in it"
  | .ok (leaf :: rest) => .ok (leaf, leaf :: rest)

/-- The certified key of a chain and a key file. -/
def certify (leaf : Cert) (chain : List Cert) (bytes : List UInt8) :
    Except String (Cert × CertifiedKey Cert Signer) :=
  match pki.privateKey bytes with
  | .error error => .error s!"reading the key {pair.keyFile}: {error}"
  | .ok key =>
      match pki.anySupportedType key with
      | .error error => .error s!"{pair.keyFile}: {error}"
      | .ok signer =>
          let key := { chain, signer }
          match pki.keysMatch key with
          | .error error =>
              .error s!"{pair.keyFile} does not belong to {pair.certFile}: {error}"
          | .ok () =>
              match pki.endEntity leaf with
              | .error error => .error s!"{pair.certFile}: {error}"
              | .ok () => .ok (leaf, key)

/-- What `load` makes of two files with these contents. -/
def accepts (certBytes keyBytes : List UInt8) : Except String (Cert × CertifiedKey Cert Signer) :=
  match pki.chain pair certBytes with
  | .error error => .error error
  | .ok (leaf, chain) => pki.certify pair leaf chain keyBytes

end Pki

/-- The content of a file, or the error with what it is about. -/
def readFile (path opening reading : String) :
    Prog n Cert Signer (Except String (List UInt8)) := do
  match ← ask (.openFile path) with
  | some error => return .error s!"{opening}: {error}"
  | none =>
      match ← ask (.readToEnd path) with
      | .error error => return .error s!"{reading}: {error}"
      | .ok bytes => return .ok bytes

def load (pki : Pki Cert PrivateKey Signer) (pair : CertPair) :
    Prog n Cert Signer (Except String (Cert × CertifiedKey Cert Signer)) := do
  match ← readFile pair.certFile s!"reading {pair.certFile}" s!"parsing {pair.certFile}" with
  | .error error => return .error error
  | .ok bytes =>
      match pki.chain pair bytes with
      | .error error => return .error error
      | .ok (leaf, chain) =>
          let about := s!"reading the key {pair.keyFile}"
          match ← readFile pair.keyFile about about with
          | .error error => return .error error
          | .ok bytes => return pki.certify pair leaf chain bytes

/-! ## Reloading -/

/-- A pair that loads replaces what its slot holds. -/
def keep (pair : CertPair) (i : Fin n) (stamp : Stamp) (leaf : Cert)
    (key : CertifiedKey Cert Signer) : Prog n Cert Signer Unit := do
  let _ ← ask (.log s!"router TLS: loaded {pair.certFile}")
  let _ ← ask (.setLoaded i { leaf, key, stamp })
  let _ ← ask (.setError i none)
  ask (.inc "stormlb_router_tls_reloads_total" [("result", "ok")])

/-- A pair that does not load is said so once, and keeps its slot. -/
def complain (pair : CertPair) (i : Fin n) (loaded : Bool) (msg : String) :
    Prog n Cert Signer Unit := do
  if (← ask (.errorOf i)) = some msg then return ()
  else
    let _ ← ask (.log (if loaded then
        s!"router TLS: {pair.certFile} changed but does not load, keeping the last good one: {msg}"
      else s!"router TLS: {pair.certFile}: {msg} (checked again every reload; logged once)"))
    let _ ← ask (.setError i (some msg))
    ask (.inc "stormlb_router_tls_reloads_total" [("result", "error")])

/-- Re-read one pair, if its files changed or it never loaded. -/
def reloadPair (pki : Pki Cert PrivateKey Signer) (pair : CertPair) (i : Fin n) :
    Prog n Cert Signer Unit := do
  let cert ← ask (.mtime pair.certFile)
  let key ← ask (.mtime pair.keyFile)
  let current ← ask (.stampOf i)
  if current = some (cert, key) then return ()
  else
    match ← load pki pair with
    | .ok (leaf, certified) => keep pair i (cert, key) leaf certified
    | .error msg => complain pair i current.isSome msg

end

section

variable {Cert PrivateKey Signer : Type}

/-- The pairs of these numbers, one after another. -/
def reloadPairs (pki : Pki Cert PrivateKey Signer) (pairs : List CertPair) :
    List (Fin pairs.length) → Prog pairs.length Cert Signer Unit
  | [] => return ()
  | i :: rest => do
      reloadPair pki (pairs.get i) i
      reloadPairs pki pairs rest

/-- Re-read each pair whose files changed; how many are loaded. -/
def reload (pki : Pki Cert PrivateKey Signer) (pairs : List CertPair) :
    Prog pairs.length Cert Signer Nat := do
  reloadPairs pki pairs (List.finRange pairs.length)
  let n ← ask .count
  let _ ← ask (.gaugeSet "stormlb_router_tls_certificates_loaded" n)
  return n

/-- `Certs::new`, and then `reload_every`. -/
inductive Phase where
  | new
  | every
  deriving DecidableEq, Repr

def turn (pki : Pki Cert PrivateKey Signer) (pairs : List CertPair) (secs : Nat) :
    Phase → Prog pairs.length Cert Signer (Phase ⊕ Empty)
  | .new => do
      let _ ← reload pki pairs
      return .inl .every
  | .every => do
      let _ ← ask (.sleep (max secs 1))
      let _ ← reload pki pairs
      return .inl .every

end

/-! ## Files that change -/

structure File where
  content : List UInt8
  modified : Nat
  deriving DecidableEq, Repr

/-- The files under their paths, and the slots. -/
structure World (n : Nat) (Cert Signer : Type) where
  disk : String → Option File
  /-- The modification times a path had so far. -/
  seen : String → List Nat
  /-- The file did not change since it was opened. -/
  opened : String → Bool
  loaded : Fin n → Option (Loaded Cert Signer)
  errors : Fin n → Option String

namespace World

variable {n : Nat} {Cert Signer : Type}

/-- How many pairs are loaded. -/
def count (world : World n Cert Signer) : Nat :=
  (List.finRange n).countP fun i => (world.loaded i).isSome

/-- Nothing is loaded yet. -/
def starting (disk : String → Option File) : World n Cert Signer where
  disk := disk
  seen path := (disk path).toList.map File.modified
  opened _ := false
  loaded _ := none
  errors _ := none

/-- Another file under the path, or none. -/
def change (world : World n Cert Signer) (path : String) (file : Option File) :
    World n Cert Signer :=
  { world with
    disk := Function.update world.disk path file
    seen := Function.update world.seen path (file.toList.map File.modified ++ world.seen path)
    opened := Function.update world.opened path false }

/-- A slot that is loaded. -/
def put (world : World n Cert Signer) (i : Fin n) (held : Loaded Cert Signer) :
    World n Cert Signer :=
  { world with loaded := Function.update world.loaded i (some held) }

theorem put_loaded_self (world : World n Cert Signer) (i : Fin n) (held : Loaded Cert Signer) :
    (world.put i held).loaded i = some held :=
  Function.update_self ..

theorem put_loaded_of_ne (world : World n Cert Signer) {i j : Fin n} (apart : j ≠ i)
    (held : Loaded Cert Signer) : (world.put i held).loaded j = world.loaded j :=
  Function.update_of_ne apart ..

/-- A change of one file, to a modification time it never had. -/
def Drifts (world later : World n Cert Signer) : Prop :=
  ∃ path file, later = world.change path file ∧
    ∀ new ∈ file, new.modified ∉ world.seen path

/-- A file is read as it was opened, unless it changed since: then any way at all. -/
def serves (world : World n Cert Signer) :
    (op : Op n Cert Signer) → op.Ans → Option (World n Cert Signer)
  | .mtime path, answer =>
      if answer = (world.disk path).map File.modified then some world else none
  | .openFile path, failed =>
      if failed.isSome = (world.disk path).isNone then
        some { world with opened := Function.update world.opened path (failed.isNone) }
      else none
  | .readToEnd path, answer =>
      if world.opened path = true → answer.toOption = (world.disk path).map File.content then
        some world
      else none
  | .stampOf i, answer => if answer = (world.loaded i).map Loaded.stamp then some world else none
  | .setLoaded i loaded, _ => some (world.put i loaded)
  | .errorOf i, answer => if answer = world.errors i then some world else none
  | .setError i error, _ => some { world with errors := Function.update world.errors i error }
  | .count, answer => if answer = world.count then some world else none
  | .log _, _ => some world
  | .inc .., _ => some world
  | .gaugeSet .., _ => some world
  | .sleep _, _ => some world

end World

section

variable {Cert PrivateKey Signer : Type}

/-- The reloads of a router, whose files change meanwhile. -/
def system (pki : Pki Cert PrivateKey Signer) (pairs : List CertPair) (secs : Nat) :
    Threads Unit (Op pairs.length Cert Signer) Op.Ans Phase Empty (World pairs.length Cert Signer) where
  first _ := .done (.inl .new)
  body _ := turn pki pairs secs
  serves _ := World.serves
  drifts := World.Drifts

end

end StormLb.Tls
