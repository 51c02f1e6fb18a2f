import LifecycleFabric.Lib.Runs

/-!
# Replacing a file by way of a temporary

A file is replaced by writing a temporary beside it and renaming the temporary over it. A
crash leaves what some of the effects made of the disk, in their order: a prefix of them. As
long as only the temporary is written, the file is as it was; a rename leaves the file with
what the temporary held.
-/

namespace AtomicReplace

open Runs

variable {α : Type}

/-- A file and the temporary beside it. -/
structure Disk (α : Type) where
  destination : Option (List α) := none
  temporary : Option (List α) := none
  deriving DecidableEq

/-- What a call to the file system does to the disk when it takes effect. -/
inductive DiskEffect (α : Type)
  /-- The temporary is created, or emptied. -/
  | truncate
  | write (piece : List α)
  | rename
  | removeDestination
  | removeTemporary
  deriving DecidableEq

/-- The disk after an effect. -/
def Disk.apply (disk : Disk α) : DiskEffect α → Disk α
  | .truncate => { disk with temporary := some [] }
  | .write piece => { disk with temporary := disk.temporary.map (· ++ piece) }
  | .rename =>
    match disk.temporary with
    | none => disk
    | some contents => { destination := some contents, temporary := none }
  | .removeDestination => { disk with destination := none }
  | .removeTemporary => { disk with temporary := none }

/-- Contents in pieces: of the given sizes, and then what is left. -/
def pieces : List ℕ → List α → List (List α)
  | [], contents => [contents]
  | size :: sizes, contents => contents.take size :: pieces sizes (contents.drop size)

theorem flatten_pieces (sizes : List ℕ) (contents : List α) :
    (pieces sizes contents).flatten = contents := by
  induction sizes generalizing contents with
  | nil => simp [pieces]
  | cons size sizes ih => rw [pieces, List.flatten_cons, ih, List.take_append_drop]

/-- Write contents to the temporary in pieces. A write that fails leaves out the last one. -/
def writing (sizes : List ℕ) (contents : List α) (whole : Bool) : List (DiskEffect α) :=
  .truncate ::
    (if whole then pieces sizes contents else (pieces sizes contents).dropLast).map .write

/-! ## The temporary -/

/-- Whether an effect leaves the file alone. -/
def DiskEffect.spares : DiskEffect α → Bool
  | .truncate | .write _ | .removeTemporary => true
  | .rename | .removeDestination => false

/-- An effect on the temporary keeps the file. -/
theorem destination_apply {effect : DiskEffect α} (h : effect.spares = true) (disk : Disk α) :
    (disk.apply effect).destination = disk.destination := by
  cases effect with
  | rename => exact absurd h Bool.false_ne_true
  | removeDestination => exact absurd h Bool.false_ne_true
  | _ => rfl

/-- While only the temporary is touched the file is as it was, wherever a crash comes. -/
theorem always_destination {effects : List (DiskEffect α)}
    (h : ∀ effect ∈ effects, effect.spares = true) (disk : Disk α) :
    Always Disk.apply (fun now => now.destination = disk.destination) disk effects := by
  have halong : Along Disk.apply (fun _ effect => effect.spares = true) disk effects :=
    along_of_forall Disk.apply h
  refine always_of_along Disk.apply ?_ halong rfl
  intro now effect hnow heffect
  rw [destination_apply heffect, hnow]

theorem spares_writing (sizes : List ℕ) (contents : List α) (whole : Bool) :
    ∀ effect ∈ writing sizes contents whole, effect.spares = true := by
  intro effect heffect
  rcases List.mem_cons.mp heffect with rfl | hwrite
  · rfl
  · obtain ⟨piece, _, rfl⟩ := List.mem_map.mp hwrite
    rfl

/-- Writing pieces to a temporary adds them to what it holds. -/
theorem run_writes (disk : Disk α) (held : List α) (written : List (List α)) :
    run Disk.apply { disk with temporary := some held } (written.map .write) =
      { disk with temporary := some (held ++ written.flatten) } := by
  induction written generalizing held with
  | nil => simp
  | cons piece written ih =>
    have hfirst : Disk.apply { disk with temporary := some held } (.write piece) =
        { disk with temporary := some (held ++ piece) } := rfl
    rw [List.map_cons, run_cons, hfirst, ih, List.flatten_cons, List.append_assoc]

/-- What was written to the end is what the temporary holds. -/
theorem run_writing (disk : Disk α) (sizes : List ℕ) (contents : List α) :
    run Disk.apply disk (writing sizes contents true) =
      { disk with temporary := some contents } := by
  have hwrites := run_writes disk [] (pieces sizes contents)
  rw [flatten_pieces, List.nil_append] at hwrites
  exact hwrites

end AtomicReplace
