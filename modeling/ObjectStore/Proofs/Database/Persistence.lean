import ObjectStore.Proofs.Database.Load
import ObjectStore.Proofs.Permanence

/-!
# Stored objects stay

What stands at the places of objects, along every run from a fresh root.

* `Effect.object_cases`: a write leaves the place of an object alone, unless nothing is there and it
  stores that very object.
* `Repository.Sound`: at the place of an object stands nothing but the file of an object with that
  id that the run stored. `Repository.Sound.run` says that every run keeps this.
* `Repository.object_stays`: an object that was stored can be read ever after, and is never written
  again. The hash has to tell the objects of the run apart (`Repository.CollisionFree`).
-/

namespace ObjectStore

/-! ## What a run stores -/

/-- The object that a write stores, if it succeeds with the number that is drawn. -/
def Effect.stored (repo : Repository) (draw : UInt32) (t : FileTree) : Effect → List RawObject
  | store object =>
    if (repo.database.storeRaw draw object.kind object.payload t).1.toBool then [object] else []
  | _ => []

namespace Repository

/-- The objects that a run stores, in order. -/
def stored (repo : Repository) : List Operation → FileTree → List RawObject
  | [], _ => []
  | op :: ops, t =>
    (op.action.effect repo t).stored repo op.draw t ++ repo.stored ops (op.run repo t)

/-- No two objects have canonical forms that are different and have the same digest. -/
def CollisionFree (objects : List RawObject) : Prop :=
  ∀ a ∈ objects, ∀ b ∈ objects,
    ¬ Sha1.Collision (Canonical.form a.kind a.payload) (Canonical.form b.kind b.payload)

instance (objects : List RawObject) : Decidable (CollisionFree objects) :=
  inferInstanceAs (Decidable (∀ a ∈ objects, ∀ b ∈ objects, ¬ _))

/-- The root of a repository is a directory with nothing in it. -/
structure IsFresh (repo : Repository) (r : Location) (t : FileTree) : Prop extends
    repo.IsAt r t where
  empty : ∀ names, names ≠ [] → t.lookup (r ++ names) = none

/-- The root of the tree with nothing in it is fresh, whatever path leads to it. -/
theorem isFresh_of_locate {root : Path} {layout : Layout}
    (hroot : FileTree.empty.locate root = .ok []) (hgit : layout.gitDirectory = ⟨".git"⟩) :
    IsFresh ⟨root, layout⟩ [] FileTree.empty where
  gitDirectory := hgit
  root := hroot
  directory := FileTree.lookup_nil _
  empty names hne := by simp [FileTree.lookup, FileTree.empty, hne]

/-- The path of a single slash leads to it. -/
theorem isFresh_empty {layout : Layout} (h : layout.gitDirectory = ⟨".git"⟩) :
    IsFresh ⟨⟨"/"⟩, layout⟩ [] FileTree.empty :=
  isFresh_of_locate (by decide) h

variable {repo : Repository} {r : Location} {t t₀ : FileTree} {objects : List RawObject}

/-- A run stores what its parts store, each from where the one before it ended. -/
theorem stored_append (before after : List Operation) (t : FileTree) :
    repo.stored (before ++ after) t
      = repo.stored before t ++ repo.stored after (repo.run before t) := by
  induction before generalizing t with
  | nil => rfl
  | cons op before ih =>
    rw [List.cons_append, stored, stored, ih, List.append_assoc]
    rfl

/-- What a run stores, one of its operations stores. -/
theorem exists_of_mem_stored {ops : List Operation} {object : RawObject}
    (h : object ∈ repo.stored ops t) : ∃ before op after, ops = before ++ op :: after ∧
      object ∈ (op.action.effect repo (repo.run before t)).stored repo op.draw
        (repo.run before t) := by
  induction ops generalizing t with
  | nil => exact absurd h List.not_mem_nil
  | cons op ops ih =>
    rcases List.mem_append.mp h with h | h
    · exact ⟨[], op, ops, rfl, h⟩
    · obtain ⟨before, op', after, rfl, hstored⟩ := ih h
      exact ⟨op :: before, op', after, rfl, hstored⟩

/-! ## Places of objects -/

/-- The place of an object does not lead to anything that lies less deep. -/
theorem not_objectPlace_prefix {names : List String} (h : names.length < 4) (id : ObjectId) :
    ¬ objectPlace r id <+: r ++ names := by
  intro hprefix
  have := ((List.prefix_append_right_inj r).mp hprefix).length_le
  simp only [List.length_cons, List.length_nil] at this
  omega

/-- No object is kept where a directory of the repository itself is. -/
theorem not_isFrame_objectPlace (id : ObjectId) : ¬ IsFrame r (objectPlace r id) := by
  rintro (h | h)
  · exact not_objectPlace_prefix (by decide) id h
  · exact not_objectPlace_prefix (by decide) id h

/-- No object is kept on the way to a branch. -/
theorem not_objectPlace_prefix_branchPlace (id : ObjectId) (branch : BranchName) :
    ¬ objectPlace r id <+: (branchPlace r branch).dropLast := by
  intro h
  have := (List.prefix_append_right_inj r).mp (h.trans (List.dropLast_prefix _))
  simp at this

end Repository

/-- What a write stores is what it was to store, if that succeeds. -/
theorem Effect.mem_stored_iff {repo : Repository} {draw : UInt32} {t : FileTree}
    {effect : Effect} {object : RawObject} :
    object ∈ effect.stored repo draw t ↔ effect = store object ∧
      (repo.database.storeRaw draw object.kind object.payload t).1.toBool = true := by
  cases effect with
  | store other =>
    rw [stored]
    split_ifs with hok
    · rw [List.mem_singleton, store.injEq]
      constructor
      · rintro rfl
        exact ⟨rfl, hok⟩
      · exact fun h => h.1.symm
    · refine iff_of_false List.not_mem_nil ?_
      rintro ⟨h, hobject⟩
      cases h
      exact hok hobject
  | _ => simp [stored]

/-- No write makes a directory at the place of an object. -/
theorem Effect.not_makes_objectPlace {r : Location} (effect : Effect) (id : ObjectId) :
    ¬ effect.makes r (Repository.objectPlace r id) := by
  cases effect with
  | nothing => exact False.elim
  | create => exact Repository.not_isFrame_objectPlace id
  | store object => exact Repository.not_objectPlace_prefix (by simp) id
  | point branch commit => exact Repository.not_objectPlace_prefix_branchPlace id branch

/-- A write leaves the place of an object alone, unless nothing is there and it stores that very
object. -/
theorem Effect.object_cases {repo : Repository} {r : Location} {t : FileTree}
    (h : repo.IsAt r t) (draw : UInt32) (effect : Effect) (id : ObjectId) :
    (effect.apply repo draw t).lookup (Repository.objectPlace r id)
        = t.lookup (Repository.objectPlace r id) ∨
      t.lookup (Repository.objectPlace r id) = none ∧ ∃ object ∈ effect.stored repo draw t,
        Canonical.isKind object.kind = true ∧ Canonical.idOf object.kind object.payload = id ∧
        (effect.apply repo draw t).lookup (Repository.objectPlace r id)
          = some (.file (Zlib.compress (Canonical.form object.kind object.payload))) := by
  obtain hsame | ⟨-, -, hmade⟩ | ⟨-, content, hlookup, hwritten⟩ :=
    h.apply_grows draw effect (Repository.objectPlace r id)
  · exact Or.inl hsame
  · exact absurd hmade (effect.not_makes_objectPlace id)
  -- The file that was written is at the place of an object, so it is not `HEAD` or a branch.
  cases effect with
  | nothing => exact hwritten.elim
  | create => exact absurd hwritten.place (Repository.objectPlace_ne_headPlace id)
  | point branch commit =>
    exact absurd hwritten.place (Repository.objectPlace_ne_branchPlace id branch)
  | store object =>
    obtain ⟨hok, hfile⟩ := hwritten
    have hmem : object ∈ stored repo draw t (store object) := by
      rw [stored, if_pos hok]
      exact List.mem_singleton_self object
    refine Or.inr ⟨hfile.absent, object, hmem, hfile.isKind, ?_, ?_⟩
    · exact (Repository.objectPlace_injective hfile.place).symm
    · rw [hlookup, hfile.content]

/-! ## Reading objects back -/

namespace Database

/-- An object whose file can be read is there, is read as what it is, and is not written again. -/
theorem load_of_compress {db : Database} {t : FileTree} {kind : String} {payload : Bytes}
    (hkind : Canonical.isKind kind = true) (hsize : payload.length < Canonical.sizeBound)
    (hfile : db.objectFile t (Canonical.idOf kind payload)
      = .ok (Zlib.compress (Canonical.form kind payload))) :
    db.contains t (Canonical.idOf kind payload) = true ∧
      db.load t (Canonical.idOf kind payload) = .ok ⟨kind, payload⟩ ∧
      ∀ draw, db.storeRaw draw kind payload t = (.ok (Canonical.idOf kind payload), t) := by
  refine ⟨FileTree.isFile_iff_readFile.mpr ⟨_, hfile⟩, ?_, fun draw => ?_⟩
  · rw [load_of_objectFile hfile, openStream_compress hkind hsize]
    rfl
  · exact db.storeRaw_of_isPresent hkind (FileTree.isPresent_of_readFile hfile)

end Database

namespace Repository

variable {repo : Repository} {r : Location} {t t₀ : FileTree} {objects : List RawObject}

/-! ## The invariant of runs -/

/-- At the place of an object stands nothing but the file of one of the given objects, of a valid
kind and with that id. -/
structure Sound (repo : Repository) (r : Location) (objects : List RawObject) (t : FileTree) :
    Prop extends repo.IsAt r t where
  object : ∀ id node, t.lookup (objectPlace r id) = some node → ∃ object ∈ objects,
    Canonical.isKind object.kind = true ∧ Canonical.idOf object.kind object.payload = id ∧
    node = .file (Zlib.compress (Canonical.form object.kind object.payload))

/-- A fresh root has no object yet. -/
theorem IsFresh.sound (h : repo.IsFresh r t) : repo.Sound r [] t where
  toIsAt := h.toIsAt
  object id node hnode := by
    rw [objectPlace, h.empty _ (List.cons_ne_nil _ _)] at hnode
    cases hnode

/-- An operation keeps the invariant, with the object it stores. -/
theorem Sound.run_operation (h : repo.Sound r objects t) (op : Operation) :
    repo.Sound r (objects ++ (op.action.effect repo t).stored repo op.draw t) (op.run repo t) where
  toIsAt := h.toIsAt.run_operation op
  object id node hnode := by
    rw [op.run_eq_apply_effect] at hnode
    obtain hsame | ⟨-, object, hmem, hkind, hid, hfile⟩ :=
      (op.action.effect repo t).object_cases h.toIsAt op.draw id
    · obtain ⟨object, hmem, hobject⟩ := h.object id node (hsame.symm.trans hnode)
      exact ⟨object, List.mem_append_left _ hmem, hobject⟩
    · rw [hfile, Option.some.injEq] at hnode
      exact ⟨object, List.mem_append_right _ hmem, hkind, hid, hnode.symm⟩

/-- Every run keeps the invariant, with the objects it stores. -/
theorem Sound.run (h : repo.Sound r objects t) (ops : List Operation) :
    repo.Sound r (objects ++ repo.stored ops t) (repo.run ops t) := by
  induction ops generalizing objects t with
  | nil => simpa [stored] using h
  | cons op ops ih =>
    rw [stored, ← List.append_assoc]
    exact ih (h.run_operation op)

/-- What stands at the place of an object stays there. -/
theorem IsAt.object_run (h : repo.IsAt r t) (ops : List Operation) {id : ObjectId} {node : Node}
    (hnode : t.lookup (objectPlace r id) = some node) :
    (repo.run ops t).lookup (objectPlace r id) = some node := by
  cases node with
  | directory => exact h.directory_run ops hnode
  | file content =>
    refine h.file_run_of_ne ops hnode (objectPlace_ne_branchPlace id) ?_
    intro hhead
    exact absurd hhead (objectPlace_ne_headPlace id)

/-- An object that is there stays there with its bytes, along every run. -/
theorem IsAt.objectFile_run (h : repo.IsAt r t) (ops : List Operation) {id : ObjectId}
    {stream : Bytes} (hfile : repo.database.objectFile t id = .ok stream) :
    repo.database.objectFile (repo.run ops t) id = .ok stream := by
  obtain ⟨l, hl, hlookup⟩ := FileTree.readFile_eq_ok_iff.mp hfile
  obtain rfl := h.eq_of_locate_objectPath hl
  refine FileTree.readFile_eq_ok_iff.mpr ⟨_, ?_, h.object_run ops hlookup⟩
  exact FileTree.locate_of_directories (fun _ => h.directory_run ops) hl

/-- An object that a run stored is there afterwards, or another one with its id. -/
theorem IsAt.isPresent_of_mem_stored (h : repo.IsAt r t) {ops : List Operation}
    {object : RawObject} (hmem : object ∈ repo.stored ops t) :
    Canonical.isKind object.kind = true ∧ (repo.run ops t).isPresent
      (repo.database.objectPath (Canonical.idOf object.kind object.payload)) = true := by
  obtain ⟨before, op, after, rfl, hstored⟩ := exists_of_mem_stored hmem
  obtain ⟨heffect, hok⟩ := Effect.mem_stored_iff.mp hstored
  have hop : op.run repo (repo.run before t)
      = (repo.database.storeRaw op.draw object.kind object.payload (repo.run before t)).2 := by
    rw [op.run_eq_apply_effect, heffect, Effect.apply]
  obtain ⟨err, t', heq, -⟩ | ⟨hkind, t', heq, -, hpresent⟩ :=
    (h.run before).storeRaw_spec op.draw object.kind object.payload
  · rw [heq] at hok
    cases hok
  have hat : repo.IsAt r (op.run repo (repo.run before t)) := (h.run before).run_operation op
  rw [heq] at hop
  rw [hop] at hat
  rw [run_append, run_cons, hop]
  -- What is in its place stays there.
  obtain ⟨l, node, hl, hnode⟩ := FileTree.isPresent_iff.mp hpresent
  obtain rfl := hat.eq_of_locate_objectPath hl
  have hlocate := FileTree.locate_of_directories (fun _ => hat.directory_run after) hl
  exact ⟨hkind, FileTree.isPresent_iff.mpr ⟨_, node, hlocate, hat.object_run after hnode⟩⟩

/-- An object that a run stored has its own file in its place afterwards, since no other object of
the run can be there. -/
theorem IsFresh.objectFile_of_mem_stored (hfresh : repo.IsFresh r t₀) {ops : List Operation}
    {object : RawObject} (hmem : object ∈ repo.stored ops t₀)
    (hfree : CollisionFree (repo.stored ops t₀)) :
    Canonical.isKind object.kind = true ∧
      repo.database.objectFile (repo.run ops t₀) (Canonical.idOf object.kind object.payload)
        = .ok (Zlib.compress (Canonical.form object.kind object.payload)) := by
  obtain ⟨hkind, hpresent⟩ := hfresh.isPresent_of_mem_stored hmem
  obtain ⟨l, node, hl, hnode⟩ := FileTree.isPresent_iff.mp hpresent
  obtain rfl := (hfresh.toIsAt.run ops).eq_of_locate_objectPath hl
  have hsound := hfresh.sound.run ops
  rw [List.nil_append] at hsound
  obtain ⟨other, hother, -, hid, rfl⟩ := hsound.object _ node hnode
  obtain hform | hcollision := Canonical.idOf_eq_idOf_iff.mp hid
  · rw [hform] at hnode
    exact ⟨hkind, FileTree.readFile_eq_ok_iff.mpr ⟨_, hl, hnode⟩⟩
  · exact absurd hcollision (hfree other hother object hmem)

/-- Storing an object succeeds only if its own file is in its place afterwards. -/
theorem IsFresh.objectFile_of_storeRaw (hfresh : repo.IsFresh r t₀) {before : List Operation}
    {draw : UInt32} {kind : String} {payload : Bytes} {id : ObjectId}
    (hok : (repo.database.storeRaw draw kind payload (repo.run before t₀)).1 = .ok id)
    (hfree : CollisionFree (repo.stored (before ++ [⟨draw, .storeRaw kind payload⟩]) t₀)) :
    Canonical.isKind kind = true ∧ id = Canonical.idOf kind payload ∧
      repo.database.objectFile (repo.run (before ++ [⟨draw, .storeRaw kind payload⟩]) t₀) id
        = .ok (Zlib.compress (Canonical.form kind payload)) := by
  have hid : id = Canonical.idOf kind payload := repo.database.eq_idOf_of_storeRaw hok
  have hmem : (⟨kind, payload⟩ : RawObject) ∈
      repo.stored (before ++ [⟨draw, .storeRaw kind payload⟩]) t₀ := by
    rw [stored_append]
    refine List.mem_append_right _ ?_
    simp [stored, Action.effect, Effect.stored, hok, Except.toBool]
  obtain ⟨hkind, hfile⟩ := hfresh.objectFile_of_mem_stored hmem hfree
  exact ⟨hkind, hid, hid ▸ hfile⟩

/-- An object that was stored can be read ever after: it is there, it loads as what was stored, its
file is the one that was first there, and storing it again changes nothing, whatever number is
drawn. Its payload has a length below the bound of sizes, as every byte string in memory has. -/
theorem object_stays (hfresh : repo.IsFresh r t₀) {ops before after : List Operation}
    {draw : UInt32} {kind : String} {payload : Bytes} {id : ObjectId}
    (hops : ops = before ++ ⟨draw, .storeRaw kind payload⟩ :: after)
    (hok : (repo.database.storeRaw draw kind payload (repo.run before t₀)).1 = .ok id)
    (hsize : payload.length < Canonical.sizeBound)
    (hfree : CollisionFree (repo.stored ops t₀)) :
    repo.database.contains (repo.run ops t₀) id = true ∧
      repo.database.load (repo.run ops t₀) id = .ok ⟨kind, payload⟩ ∧
      (∃ stream, repo.database.objectFile (repo.run ops t₀) id = .ok stream ∧
        ∀ early late, ops = early ++ late →
          repo.database.contains (repo.run early t₀) id = true →
          repo.database.objectFile (repo.run early t₀) id = .ok stream) ∧
      ∀ again, repo.database.storeRaw again kind payload (repo.run ops t₀)
        = (.ok id, repo.run ops t₀) := by
  have hsplit : ops = (before ++ [⟨draw, .storeRaw kind payload⟩]) ++ after := by simp [hops]
  have hfree' : CollisionFree (repo.stored (before ++ [⟨draw, .storeRaw kind payload⟩]) t₀) := by
    rw [hsplit, stored_append] at hfree
    exact fun a ha b hb => hfree a (List.mem_append_left _ ha) b (List.mem_append_left _ hb)
  obtain ⟨hkind, rfl, hstored⟩ := hfresh.objectFile_of_storeRaw hok hfree'
  have hfile : repo.database.objectFile (repo.run ops t₀) (Canonical.idOf kind payload)
      = .ok (Zlib.compress (Canonical.form kind payload)) := by
    rw [hsplit, run_append]
    exact (hfresh.toIsAt.run _).objectFile_run after hstored
  obtain ⟨hcontains, hload, hagain⟩ := Database.load_of_compress hkind hsize hfile
  refine ⟨hcontains, hload, ⟨_, hfile, ?_⟩, hagain⟩
  intro early late hearly hthere
  -- Whatever the file held when it was first there, it holds at the end.
  obtain ⟨stream, hstream⟩ := FileTree.isFile_iff_readFile.mp hthere
  have hlast := (hfresh.toIsAt.run early).objectFile_run late hstream
  rw [← run_append, ← hearly, hfile] at hlast
  exact hstream.trans hlast.symm

/-- A blob, stored before the repository is created. -/
theorem object_stays_blob :
    let repo : Repository := ⟨⟨"/"⟩, {}⟩
    let ops : List Operation := [⟨7, .storeRaw "blob" [1, 2]⟩, ⟨7, .create⟩]
    repo.IsFresh [] FileTree.empty ∧ CollisionFree (repo.stored ops FileTree.empty) ∧
      (repo.database.storeRaw 7 "blob" [1, 2] FileTree.empty).1
        = .ok (Canonical.idOf "blob" [1, 2]) ∧
      repo.database.load (repo.run ops FileTree.empty) (Canonical.idOf "blob" [1, 2])
        = .ok ⟨"blob", [1, 2]⟩ := by
  intro repo ops
  have hfresh : repo.IsFresh [] FileTree.empty := isFresh_empty rfl
  have hops : ops = [] ++ ⟨7, .storeRaw "blob" [1, 2]⟩ :: [⟨7, .create⟩] := rfl
  have hstored : repo.stored ops FileTree.empty = [⟨"blob", [1, 2]⟩] := by decide +kernel
  have hfree : CollisionFree (repo.stored ops FileTree.empty) := by
    rw [hstored]
    decide +kernel
  have hok : (repo.database.storeRaw 7 "blob" [1, 2] FileTree.empty).1
      = .ok (Canonical.idOf "blob" [1, 2]) := by decide +kernel
  obtain ⟨-, hload, -⟩ := object_stays hfresh hops hok (by decide) hfree
  exact ⟨hfresh, hfree, hok, hload⟩

end Repository

end ObjectStore
