import Mathlib.Data.List.Basic
import Mathlib.Logic.Function.Basic

/-!
# Names and files

A disk maps names to files.  Whoever has a file open writes to the file, under
whatever name it is by then: creating a name that exists truncates its file, and
renaming moves a file from one name to another at once.
-/

namespace StormLb.Effects

/-- The contents after a piece is written at an offset; a gap is filled. -/
def overwrite {β : Type} (gap : β) (contents : List β) (offset : Nat) (piece : List β) : List β :=
  contents.take offset ++ List.replicate (offset - contents.length) gap ++ piece ++
    contents.drop (offset + piece.length)

/-- Writing the next piece of a text after what was written of it. -/
theorem overwrite_next {β : Type} (gap : β) (text : List β) {offset : Nat} (size : Nat)
    (within : offset ≤ text.length) :
    overwrite gap (text.take offset) offset ((text.drop offset).take size) =
      text.take (offset + size) := by
  have short : (text.take offset).length = offset := by
    rw [List.length_take, Nat.min_eq_left within]
  have rest : (text.take offset).drop (offset + ((text.drop offset).take size).length) = [] := by
    rw [List.drop_eq_nil_iff, short]
    exact Nat.le_add_right _ _
  rw [overwrite, short, Nat.sub_self, List.replicate_zero, List.append_nil, rest, List.append_nil,
    List.take_take, Nat.min_self, List.take_add]

/-- No file has two names, and every file has a number below the next one. -/
structure Sound {Name : Type} (names : Name → Option Nat) (next : Nat) : Prop where
  single : ∀ first second file, names first = some file → names second = some file → first = second
  below : ∀ name file, names name = some file → file < next

namespace Sound

variable {Name : Type} [DecidableEq Name] {names : Name → Option Nat} {next file : Nat}

theorem set (sound : Sound names next) (name : Name) (unnamed : ∀ other, names other ≠ some file)
    (made : file < next) : Sound (Function.update names name (some file)) next := by
  constructor
  · intro first second shared one other
    by_cases here : first = name
    · by_cases there : second = name
      · rw [here, there]
      · rw [here, Function.update_self] at one
        rw [Function.update_of_ne there, ← one] at other
        exact absurd other (unnamed second)
    · rw [Function.update_of_ne here] at one
      by_cases there : second = name
      · rw [there, Function.update_self] at other
        rw [← other] at one
        exact absurd one (unnamed first)
      · rw [Function.update_of_ne there] at other
        exact sound.single first second shared one other
  · intro other shared named
    by_cases here : other = name
    · rw [here, Function.update_self] at named
      rw [← Option.some.inj named]
      exact made
    · rw [Function.update_of_ne here] at named
      exact sound.below other shared named

theorem clear (sound : Sound names next) (name : Name) :
    Sound (Function.update names name none) next := by
  have kept {other : Name} {file : Nat} (named : Function.update names name none other = some file) :
      names other = some file := by
    by_cases here : other = name
    · rw [here, Function.update_self] at named
      cases named
    · rwa [Function.update_of_ne here] at named
  exact ⟨fun first second file one other => sound.single first second file (kept one) (kept other),
    fun other file named => sound.below other file (kept named)⟩

/-- The file of a name that is taken away has no name left. -/
theorem unnamed_clear (sound : Sound names next) {name : Name} (named : names name = some file)
    (other : Name) : Function.update names name none other ≠ some file := by
  by_cases here : other = name
  · rw [here, Function.update_self]
    exact nofun
  · rw [Function.update_of_ne here]
    exact fun same => here (sound.single other name file same named)

end Sound

/-- The files by their numbers, and the names they have. -/
structure Disk (Name β : Type) where
  names : Name → Option Nat
  contents : Nat → List β
  next : Nat
  sound : Sound names next

namespace Disk

variable {Name β : Type}

def empty : Disk Name β where
  names _ := none
  contents _ := []
  next := 0
  sound := ⟨nofun, nofun⟩

def read (disk : Disk Name β) (name : Name) : Option (List β) :=
  (disk.names name).map disk.contents

/-- Write a piece to an open file. -/
def write (gap : β) (disk : Disk Name β) (file offset : Nat) (piece : List β) : Disk Name β :=
  { disk with
    contents := Function.update disk.contents file
      (overwrite gap (disk.contents file) offset piece) }

theorem read_of_named {disk : Disk Name β} {name : Name} {file : Nat}
    (named : disk.names name = some file) : disk.read name = some (disk.contents file) := by
  rw [read, named, Option.map_some]

/-- Two disks on which a name has the same file, with the same contents. -/
theorem read_congr {disk after : Disk Name β} {name : Name} (names : after.names name = disk.names name)
    (contents : ∀ file, disk.names name = some file → after.contents file = disk.contents file) :
    after.read name = disk.read name := by
  rw [read, read, names]
  cases named : disk.names name with
  | none => rfl
  | some file => rw [Option.map_some, Option.map_some, contents file named]

theorem contents_write (gap : β) (disk : Disk Name β) (file offset : Nat) (piece : List β) :
    (disk.write gap file offset piece).contents file =
      overwrite gap (disk.contents file) offset piece :=
  Function.update_self file _ disk.contents

theorem read_write_of_ne {disk : Disk Name β} {name other : Name} {file : Nat} (gap : β) (offset : Nat)
    (piece : List β) (named : disk.names name = some file) (apart : other ≠ name) :
    (disk.write gap file offset piece).read other = disk.read other := by
  refine read_congr rfl fun file' named' => Function.update_of_ne ?_ _ disk.contents
  rintro rfl
  exact apart (disk.sound.single other name file' named' named)

variable [DecidableEq Name]

/-- A new file under a name that has none. -/
def add (disk : Disk Name β) (name : Name) : Disk Name β where
  names := Function.update disk.names name (some disk.next)
  contents := Function.update disk.contents disk.next []
  next := disk.next + 1
  sound :=
    have grown : Sound disk.names (disk.next + 1) :=
      ⟨disk.sound.single, fun other file named => Nat.lt_succ_of_lt (disk.sound.below other file named)⟩
    grown.set name (fun other named => Nat.lt_irrefl _ (disk.sound.below other _ named))
      (Nat.lt_succ_self _)

/-- Open a name for writing, with nothing in its file: which file that is. -/
def create (disk : Disk Name β) (name : Name) : Nat × Disk Name β :=
  match disk.names name with
  | some file => (file, { disk with contents := Function.update disk.contents file [] })
  | none => (disk.next, disk.add name)

/-- A file leaves its name for another, whose own file loses it. -/
def rename (disk : Disk Name β) (source target : Name) : Option (Disk Name β) :=
  match named : disk.names source with
  | none => none
  | some file => some
    { disk with
      names := Function.update (Function.update disk.names source none) target (some file)
      sound := (disk.sound.clear source).set target (disk.sound.unnamed_clear named)
        (disk.sound.below source file named) }

variable {disk after : Disk Name β} {name other source target : Name}

theorem create_self (disk : Disk Name β) (name : Name) :
    (disk.create name).2.names name = some (disk.create name).1 ∧
      (disk.create name).2.contents (disk.create name).1 = [] := by
  unfold create
  split
  · rename_i file named
    exact ⟨named, Function.update_self file [] disk.contents⟩
  · simp only [add, Function.update_self, and_self]

theorem read_create_of_ne (apart : other ≠ name) :
    (disk.create name).2.read other = disk.read other := by
  unfold create
  split
  · rename_i file named
    refine read_congr rfl fun file' named' => ?_
    have old : file' ≠ file := by
      rintro rfl
      exact apart (disk.sound.single other name file' named' named)
    simp only [Function.update_of_ne old]
  · refine read_congr ?_ fun file named => ?_
    · simp only [add, Function.update_of_ne apart]
    · have old := Nat.ne_of_lt (disk.sound.below other file named)
      simp only [add, Function.update_of_ne old]

/-- The target has the source's file. -/
theorem read_rename (renamed : disk.rename source target = some after) :
    after.read target = disk.read source ∧ disk.names source ≠ none := by
  unfold rename at renamed
  split at renamed
  · cases renamed
  · rename_i file named
    cases renamed
    refine ⟨?_, fun none => by cases named.symm.trans none⟩
    rw [read_of_named named]
    refine read_of_named ?_
    simp only [Function.update_self]

end Disk

end StormLb.Effects
