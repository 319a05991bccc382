import ObjectStore.FileTree.Basic

/-!
# Changes of the file tree

A `Change` takes a file tree to a result and the tree as it is afterwards. A change that fails
still says what it left behind, because a failed operation may have made directories on its way.
Changes are a monad; each step of it is an equation on results (`bind_apply` and its companions).
-/

namespace ObjectStore

/-- An operation on the file tree that may fail. -/
def Change (ε α : Type) : Type := FileTree → Except ε α × FileTree

namespace Change

variable {ε δ α β : Type}

instance : Monad (Change ε) where
  pure a := fun t => (.ok a, t)
  bind x f := fun t =>
    match x t with
    | (.ok a, t) => f a t
    | (.error e, t) => (.error e, t)

/-- Fail, leaving the tree as it is. -/
def fail (e : ε) : Change ε α := fun t => (.error e, t)

/-- Look at the tree without changing it. -/
def look (f : FileTree → Except ε α) : Change ε α := fun t => (f t, t)

/-- The same change with other errors. -/
def mapError (f : ε → δ) (x : Change ε α) : Change δ α := fun t => ((x t).1.mapError f, (x t).2)

/-- Tidy up after a change that fails. -/
def orTidy (x : Change ε α) (tidy : FileTree → FileTree) : Change ε α := fun t =>
  match x t with
  | (.ok a, t) => (.ok a, t)
  | (.error e, t) => (.error e, tidy t)

/-- A result alone leaves the tree as it is. -/
@[simp] theorem pure_apply (a : α) (t : FileTree) : (pure a : Change ε α) t = (.ok a, t) := rfl

/-- The second change runs in the tree that the first one leaves, if that one succeeds. -/
theorem bind_apply (x : Change ε α) (f : α → Change ε β) (t : FileTree) :
    (x >>= f) t = match x t with
      | (.ok a, t) => f a t
      | (.error e, t) => (.error e, t) := rfl

/-- An error alone leaves the tree as it is. -/
@[simp] theorem fail_apply (e : ε) (t : FileTree) : (fail e : Change ε α) t = (.error e, t) := rfl

/-- Looking leaves the tree as it is. -/
@[simp] theorem look_apply (f : FileTree → Except ε α) (t : FileTree) : look f t = (f t, t) := rfl

end Change

end ObjectStore
