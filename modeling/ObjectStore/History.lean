import ObjectStore.Commit

/-!
# History

A walk visits a commit, its parents, their parents and so on: breadth first, parents in the order in
which a commit names them, and no id twice. A walk along the mainline follows first parents only.

The walk is given a way to load commits. An id whose commit cannot be loaded is visited too, with
the reason, and nothing is followed from there.
-/

namespace ObjectStore

/-- One id of a walk, with its commit or the reason why there is none. -/
structure Visit where
  id : ObjectId
  commit : Except StoreError Commit

/-- A walk that is under way. -/
structure Walk where
  /-- Follow first parents only. -/
  mainline : Bool
  /-- The ids to visit next, in order. -/
  queue : List ObjectId
  /-- The ids that are or were in the queue. -/
  seen : List ObjectId

namespace Walk

/-- A walk that visits the given id first. -/
def start (mainline : Bool) (id : ObjectId) : Walk := ⟨mainline, [id], [id]⟩

/-- The parents that the walk follows from a commit. -/
def followed (w : Walk) (commit : Commit) : List ObjectId :=
  if w.mainline then commit.parents.take 1 else commit.parents

/-- Put an id in the queue, unless it was there before. -/
def discover (w : Walk) (id : ObjectId) : Walk :=
  if id ∈ w.seen then w else { w with queue := w.queue ++ [id], seen := id :: w.seen }

/-- The next visit, and the walk after it; none when the walk is over. -/
def next (load : ObjectId → Except StoreError Commit) (w : Walk) : Option (Visit × Walk) :=
  match w.queue with
  | [] => none
  | id :: queue =>
    let w := { w with queue }
    match load id with
    | .ok commit => some (⟨id, .ok commit⟩, (w.followed commit).foldl discover w)
    | .error err => some (⟨id, .error err⟩, w)

/-- The next visits, at most `n` of them. -/
def visits (load : ObjectId → Except StoreError Commit) : Nat → Walk → List Visit
  | 0, _ => []
  | n + 1, w =>
    match w.next load with
    | none => []
    | some (visit, w) => visit :: visits load n w

end Walk

/-- The commits that are visited before the first id whose commit cannot be loaded, and why it
cannot. -/
def Visit.untilFault : List Visit → List (ObjectId × Commit) × Option StoreError
  | [] => ([], none)
  | visit :: rest =>
    match visit.commit with
    | .error err => ([], some err)
    | .ok commit =>
      let (commits, fault) := untilFault rest
      ((visit.id, commit) :: commits, fault)

end ObjectStore
