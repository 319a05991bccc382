import ObjectStore.Error
import ObjectStore.FileTree.Access

/-!
# Staged writes

A file that others may be reading is never written in place. Its content goes to a staged file with
a name of its own, which is then renamed to the target: a reader sees the old content, the new one
or no file, but never a part of one. A staged file that cannot be renamed is removed again.

The name of a staged file ends in a number of 32 bits drawn at random, so that writers do not get
into each other's way. The draw is a parameter of all that writes: what is proved of it holds
whatever number is drawn.
-/

namespace ObjectStore.FileTree

/-- The path of a staged file: its directory, a stem and a number. -/
def stagedPath (directory : Path) (stem : String) (n : Nat) : Path :=
  directory.join ⟨stem ++ "-" ++ Numeral.decimal n⟩

/-- The numbers that are tried for a staged file, one after the other: those of 32 bits from the
drawn one on and round to it again. The search would not end if all of them were taken, so after
them come the numbers with more bits. -/
def candidate (draw : UInt32) (i : Nat) : Nat :=
  if i < UInt32.size then (draw.toNat + i) % UInt32.size else i

/-- Which candidate is the first one whose staged path is free. There are more candidates up to the
size of the tree than there are things in it, so one of them is. -/
def freeIndex (t : FileTree) (directory : Path) (stem : String) (draw : UInt32) : Nat :=
  ((List.range (t.entries.length + 1)).find? fun i =>
    !t.isPresent (stagedPath directory stem (candidate draw i))).getD 0

/-- The number of a staged file: the drawn one, or the next one that is free. Drawing once more
whenever a number is taken comes to the same, as the number that is free in the end may as well be
the one that is drawn first. -/
def freshNumber (t : FileTree) (directory : Path) (stem : String) (draw : UInt32) : Nat :=
  candidate draw (t.freeIndex directory stem draw)

/-- Write a staged file; the result is its path. -/
def stage (draw : UInt32) (directory : Path) (stem : String) (content : Bytes) :
    Change StoreError Path := fun t =>
  let staged := stagedPath directory stem (t.freshNumber directory stem draw)
  match createFile staged content t with
  | (.ok (), t) => (.ok staged, t)
  | (.error fault, t) => (.error (.io staged fault), t)

/-- Give a staged file its final name, or remove it. -/
def publish (staged target : Path) : Change StoreError Unit :=
  ((rename staged target).mapError (.io target)).orTidy (unlink staged)

/-- Write a file by way of a staged one. -/
def replaceFile (draw : UInt32) (directory : Path) (stem : String) (target : Path)
    (content : Bytes) : Change StoreError Unit := do
  publish (← stage draw directory stem content) target

/-- Make a directory and those it lies in, with errors of the store. -/
def needDirectory (p : Path) : Change StoreError Unit := (createDirectories p).mapError (.io p)

end ObjectStore.FileTree
