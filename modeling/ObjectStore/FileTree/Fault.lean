import ObjectStore.Path

/-!
# Faults of the file tree

The ways in which an operation on the file tree can fail, and the wording of each.
-/

namespace ObjectStore

/-- Why an operation on the file tree failed. -/
inductive IoFault where
  /-- Nothing has that name. -/
  | notFound
  /-- Something has that name already. -/
  | alreadyExists
  /-- A step of the path leads through something that is not a directory. -/
  | notADirectory
  /-- A directory stands where a file is needed. -/
  | isADirectory
  /-- A name or a whole path is too long. -/
  | nameTooLong
  /-- A path with a NUL character. -/
  | nulInPath
  /-- Bytes that were to be read as text are not UTF-8. -/
  | notUtf8
  /-- A directory that was come upon cannot be opened, because its path is too long. -/
  | unopened (directory : Path)
  deriving DecidableEq, Repr

/-- What is said about a name or a path that is too long. -/
def IoFault.tooLong : String := "File name too long (os error 36)"

/-- The wording of each fault. -/
def IoFault.message : IoFault → String
  | notFound => "No such file or directory (os error 2)"
  | alreadyExists => "File exists (os error 17)"
  | notADirectory => "Not a directory (os error 20)"
  | isADirectory => "Is a directory (os error 21)"
  | nameTooLong => tooLong
  | nulInPath => "file name contained an unexpected NUL byte"
  | notUtf8 => "stream did not contain valid UTF-8"
  | unopened directory => "IO error for operation on " ++ directory.text ++ ": " ++ tooLong

/-- What a fault stands on in turn. -/
def IoFault.causes : IoFault → List String
  | unopened _ => [tooLong]
  | _ => []

end ObjectStore
