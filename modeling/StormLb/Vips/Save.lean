import StormLb.Effects.Threads
import StormLb.Vips.Registry

/-!
# `apply` and `remove` as concurrent calls

Each call takes the registry's locks one after the other, and then writes the
state file: the pending snapshot, the snapshot of the entries, the temporary
file, and the rename onto the state file.  Calls of several connections
interleave between any two of these steps.
-/

namespace StormLb.Vips

open StormLb.Effects

/-! ## Paths -/

/-- The end of a path without its trailing slashes and `.` components, both reversed. -/
def dropTrailing : List Char → List Char
  | '/' :: rest => dropTrailing rest
  | '.' :: '/' :: rest => dropTrailing rest
  | rest => rest

/-- `Path::file_name` of a Unix path, and what stands before it. -/
def splitFileName (path : String) : Option (List Char × List Char) :=
  let trimmed := dropTrailing path.toList.reverse
  let name := (trimmed.takeWhile (· ≠ '/')).reverse
  if name = [] ∨ name = ['.'] ∨ name = ['.', '.'] then none
  else some (name, (trimmed.drop name.length).reverse)

/-- `Path::file_stem` of a file name. -/
def fileStem (name : List Char) : List Char :=
  let extension := name.reverse.takeWhile (· ≠ '.')
  if name.length ≤ extension.length + 1 then name
  else name.take (name.length - (extension.length + 1))

/-- `Path::with_extension`. -/
def withExtension (path extension : String) : String :=
  match splitFileName path with
  | none => path
  | some (name, dir) => String.ofList (dir ++ fileStem name) ++ "." ++ extension

example : withExtension "/data/stormlb/vips.json" "tmp" = "/data/stormlb/vips.tmp" := by decide

/-! ## The steps of a call -/

/-- How writing a file ended; a write that failed leaves anything behind. -/
inductive Written where
  | written
  | failed (error : String) (left : Option String)
  deriving DecidableEq, Repr

inductive CallOp where
  /-- Whether the name is the config file's VIP. -/
  | findConfig (name : String)
  | put (name : String) (spec : VipSpec)
  | unpend (name : String)
  | removeEntry (name : String)
  | pendingSnapshot
  | vipsSnapshot
  /-- Create the directory the path is in. -/
  | createParent (path : String)
  | write (path text : String)
  | rename (source target : String)

abbrev CallOp.Ans : CallOp → Type
  | .findConfig _ => Bool
  | .put .. => Except ApplyError Bool
  | .unpend _ => Unit
  | .removeEntry _ => Except ApplyError Unit
  | .pendingSnapshot => State
  | .vipsSnapshot => Std.ExtTreeMap String Entry
  | .createParent _ => Except String Unit
  | .write .. => Written
  | .rename .. => Except String Unit

abbrev CallProg := Program CallOp CallOp.Ans

abbrev CallLog := History CallOp CallOp.Ans

def step (op : CallOp) : CallProg op.Ans :=
  .call op .done

@[simp] theorem step_eq (op : CallOp) : step op = .call op .done :=
  rfl

/-- `write_atomic`. -/
def writeAtomic (path text : String) : CallProg (Except String Unit) := do
  match ← step (.createParent path) with
  | .error error => return .error error
  | .ok () =>
      let tmp := withExtension path "tmp"
      match ← step (.write tmp text) with
      | .failed error _ => return .error s!"writing {tmp}: {error}"
      | .written =>
          match ← step (.rename tmp path) with
          | .error error => return .error s!"renaming {tmp} into place: {error}"
          | .ok () => return .ok ()

/-- `Registry::save`. -/
def saveSteps (serde : Serde) (stateFile : Option String) : CallProg (Except ApplyError Unit) := do
  match stateFile with
  | none => return .ok ()
  | some path =>
      let pending ← step .pendingSnapshot
      let vips ← step .vipsSnapshot
      match ← writeAtomic path (serde.toStringPretty (savedOver pending vips)) with
      | .error error => return .error (.notSaved path error)
      | .ok () => return .ok ()

/-- A request that changes the VIPs. -/
inductive Request where
  | apply (name : String) (spec : VipSpec)
  | remove (name : String)

/-- What a request returns: of `apply`, whether it created the VIP. -/
abbrev Reply := Except ApplyError (Option Bool)

def saveAndReply (serde : Serde) (stateFile : Option String) (reply : Option Bool) :
    CallProg Reply := do
  match ← saveSteps serde stateFile with
  | .error error => return .error error
  | .ok () => return .ok reply

/-- `Registry::apply`. -/
def applySteps (serde : Serde) (stateFile : Option String) (name : String) (spec : VipSpec) :
    CallProg Reply := do
  match validName name with
  | .error error => return .error error
  | .ok () =>
      if ← step (.findConfig name) then return .error (.conflict (.changesConfig name))
      else
        match ← step (.put name spec) with
        | .error error => return .error error
        | .ok created =>
            let _ ← step (.unpend name)
            saveAndReply serde stateFile (some created)

/-- `Registry::remove`. -/
def removeSteps (serde : Serde) (stateFile : Option String) (name : String) : CallProg Reply := do
  match ← step (.removeEntry name) with
  | .error error => return .error error
  | .ok () => saveAndReply serde stateFile none

def Request.steps (serde : Serde) (stateFile : Option String) : Request → CallProg Reply
  | .apply name spec => applySteps serde stateFile name spec
  | .remove name => removeSteps serde stateFile name

/-! ## Concurrent calls -/

/-- The registry, the files, and what the environment answers at the moment. -/
structure Site where
  registry : Registry
  disk : String → Option String
  env : Environment

/-- What a step may be answered, and what it leaves behind. -/
def Site.serve (site : Site) (op : CallOp) (answer : op.Ans) : Option Site :=
  match op, answer with
  | .findConfig name, found =>
      if found = site.registry.fromConfigAt name then some site else none
  | .put name spec, result =>
      let (outcome, registry) := site.registry.put site.env name spec false
      if result = outcome then some { site with registry } else none
  | .unpend name, _ =>
      some { site with
        registry := { site.registry with pending := site.registry.pending.erase name } }
  | .removeEntry name, result =>
      let (outcome, registry) := site.registry.removeEntry name
      if result = outcome then some { site with registry } else none
  | .pendingSnapshot, pending => if pending = site.registry.pending then some site else none
  | .vipsSnapshot, vips => if vips = site.registry.vips then some site else none
  | .createParent _, _ => some site
  | .write path text, .written =>
      some { site with disk := Function.update site.disk path (some text) }
  | .write path _, .failed _ left =>
      some { site with disk := Function.update site.disk path left }
  | .rename source target, .ok () =>
      match site.disk source with
      | none => none
      | some text =>
          some { site with
            disk := Function.update (Function.update site.disk source none) target (some text) }
  | .rename .., .error _ => some site

/-- The calls of some requests; between their steps the environment may change. -/
def callThreads {ι : Type} (serde : Serde) (stateFile : Option String) (requests : ι → Request) :
    Threads ι CallOp CallOp.Ans Empty Reply Site where
  first i := (requests i).steps serde stateFile >>= fun reply => return .inr reply
  body _ := Empty.elim
  serves _ := Site.serve
  drifts site after := ∃ env, after = { site with env }

end StormLb.Vips
