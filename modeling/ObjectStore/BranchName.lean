import ObjectStore.Error

/-!
# Branch names

A branch name is a path below the directory of branches. The rules keep it there and keep it
apart from the notations in which revisions are written: no control character, space or one of
`* : ? [ \ ~ ^`; no `..` and no `@{`; no slash at either end; no component that starts with a dot;
no `.lock` at the end.
-/

namespace ObjectStore

namespace BranchName

/-- A character that may not stand in a branch name. -/
def isForbidden (c : Char) : Bool :=
  c.toNat ≤ 0x20 || c.toNat == 0x7F || c == '*' || c == ':' || c == '?' || c == '[' || c == '\\'
    || c == '~' || c == '^'

/-- Whether two given characters stand next to each other. -/
def hasPair (a b : Char) : List Char → Bool
  | c :: d :: rest => (c == a && d == b) || hasPair a b (d :: rest)
  | _ => false

/-- The end that no branch name has, because files that guard others have it. -/
def guardEnd : List Char := ['.', 'l', 'o', 'c', 'k']

/-- A text that is a branch name. -/
def isValid (name : String) : Bool :=
  let l := name.toList
  !l.isEmpty && l.all (fun c => !isForbidden c)
    && !hasPair '.' '.' l && !hasPair '@' '\x7b' l
    && l.head? != some '.' && !hasPair '/' '.' l
    && l.head? != some '/' && l.getLast? != some '/'
    && !guardEnd.isSuffixOf l

end BranchName

/-- The name of a branch. -/
structure BranchName where
  name : String
  valid : BranchName.isValid name = true
  deriving DecidableEq

namespace BranchName

/-- Read a branch name. -/
def parse? (name : String) : Option BranchName :=
  if h : isValid name = true then some ⟨name, h⟩ else none

/-- Read a branch name. -/
def parse (name : String) : Except StoreError BranchName :=
  match parse? name with
  | some branch => .ok branch
  | none => .error (.invalidBranchName name)

/-- The text that is left of a text when `front` is taken from its front. -/
def dropFront? (front text : String) : Option String :=
  if front.toList.isPrefixOf text.toList then
    some (String.ofList (text.toList.drop front.toList.length))
  else none

/-- The branch that a symbolic ref points at, given the text all branch refs start with. -/
def ofSymbolic (heads target : String) : Except StoreError BranchName :=
  match dropFront? heads target with
  | some name => parse name
  | none => .error (.invalidRef target (.outside heads))

/-- Branch names in the order of their bytes. -/
def le (a b : BranchName) : Bool := decide (a.name ≤ b.name)

end BranchName

end ObjectStore
