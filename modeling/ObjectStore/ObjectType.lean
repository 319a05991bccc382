/-!
# Object types

The three kinds of object whose payload has a known form. The store itself keeps objects of any
kind; the kind of a stored object is text, and `ObjectType.ofKind?` says which of the three it
names, if any.
-/

namespace ObjectStore

/-- A kind whose payload can be decoded. -/
inductive ObjectType where
  | blob
  | tree
  | commit
  deriving DecidableEq, Repr

namespace ObjectType

/-- The name of a type, as it stands in the canonical form. -/
def kind : ObjectType → String
  | blob => "blob"
  | tree => "tree"
  | commit => "commit"

/-- The type a kind names. -/
def ofKind? (kind : String) : Option ObjectType :=
  if kind = "blob" then some blob
  else if kind = "tree" then some tree
  else if kind = "commit" then some commit
  else none

/-- The kind of a type is that of no other type. -/
@[simp] theorem ofKind?_kind (t : ObjectType) : ofKind? t.kind = some t := by
  cases t <;> rfl

/-- A kind gives a type exactly if it is the kind of that type. -/
theorem ofKind?_eq_some_iff {kind : String} {t : ObjectType} :
    ofKind? kind = some t ↔ kind = t.kind := by
  constructor
  · intro h
    unfold ofKind? at h
    split at h
    · cases h; assumption
    · split at h
      · cases h; assumption
      · split at h
        · cases h; assumption
        · cases h
  · rintro rfl
    exact ofKind?_kind t

end ObjectType

end ObjectStore
