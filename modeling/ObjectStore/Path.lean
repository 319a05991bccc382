/-!
# Paths

A path is text. Names in it are separated by slashes, a path that starts with a slash is absolute,
and nothing about a path is normalized until it is followed.

* `Path.join` puts a path below another one; an absolute path replaces it.
* `Path.parent?` is the path without its last name.
* `Path.names` are the steps a path takes. A slash at the end counts as a last step `.`, because
  only a directory can be named that way.
-/

namespace ObjectStore

/-- A path, as it was written. -/
structure Path where
  text : String
  deriving DecidableEq, Repr

namespace Path

/-- Whether a path starts at the root of the file tree. -/
def isAbsolute (p : Path) : Bool := p.text.toList.head? == some '/'

/-- The path `q` taken from `p`. -/
def join (p q : Path) : Path :=
  if q.isAbsolute then q
  else if p.text.isEmpty || p.text.toList.getLast? == some '/' then ⟨p.text ++ q.text⟩
  else ⟨p.text ++ "/" ++ q.text⟩

/-- A path held backwards, without the slashes and the steps `.` at its end. -/
def dropTrailing : List Char → List Char
  | '/' :: c :: rest => dropTrailing (c :: rest)
  | '.' :: '/' :: rest => dropTrailing ('/' :: rest)
  | l => l

/-- The path without its last name; the root and the empty path have none. -/
def parent? (p : Path) : Option Path :=
  match dropTrailing p.text.toList.reverse with
  | [] => none
  | ['/'] => none
  | backwards =>
    some ⟨String.ofList (dropTrailing (backwards.dropWhile (· != '/'))).reverse⟩

/-- The non-empty pieces between slashes, when `piece` holds the current one backwards. -/
def pieces (piece : List Char) : List Char → List String
  | [] => if piece.isEmpty then [] else [String.ofList piece.reverse]
  | c :: rest =>
    if c == '/' then
      if piece.isEmpty then pieces [] rest
      else String.ofList piece.reverse :: pieces [] rest
    else pieces (c :: piece) rest

/-- The steps of a path. -/
def names (p : Path) : List String :=
  let steps := pieces [] p.text.toList
  if p.text.toList.getLast? == some '/' then steps ++ ["."] else steps

end Path

end ObjectStore
