import ObjectStore.Proofs.FileTree.Questions
import ObjectStore.Proofs.History.Walk
import ObjectStore.Proofs.Places
import ObjectStore.Proofs.Results
import Mathlib.Order.Bounds.Defs

/-!
# The ancestry of a commit

A file tree has finitely many files, so only finitely many commits of a database load, and a walk
through its history comes to its end even where commits name each other as parents.

* `Database.exists_ids`, `Database.exists_commits`: the ids with an object file are finitely many, and
  so are the commits that load.
* `Walk.HoldsAncestry`: the sets that contain a commit and the parents of every commit in them.
* `Walk.visits_ancestry`: a walk visits the smallest of these sets, each id once.
-/

namespace ObjectStore

/-! ## The object files of a database -/

namespace Database

variable {db : Database} {t : FileTree} {id : ObjectId}

/-- The location of an object's file ends with the two parts of its id. -/
theorem exists_location_of_objectFile {content : Bytes} (h : db.objectFile t id = .ok content) :
    ∃ front, (front ++ [id.fanOut.1, id.fanOut.2], Node.file content) ∈ t.entries := by
  obtain ⟨l, hlocate, hlookup⟩ := FileTree.readFile_eq_ok_iff.mp h
  obtain ⟨-, -, -, hwalk⟩ := FileTree.locate_eq_ok_iff.mp hlocate
  obtain ⟨steps, hnames⟩ := names_objectPath id db
  rw [hnames, List.foldlM_append, bind_eq_ok_iff] at hwalk
  obtain ⟨front, -, hlast⟩ := hwalk
  have hplain : ∀ n ∈ [id.fanOut.1, id.fanOut.2], Path.IsPlain n := by
    intro n hn
    rcases List.mem_pair.mp hn with rfl | rfl
    · exact id.isName_fan.2.2.2
    · exact id.isName_file.2.2.2
  obtain ⟨rfl, -⟩ := (FileTree.walk_eq_ok_iff hplain).mp hlast
  exact ⟨front, (FileTree.lookup_eq_some_iff (by simp)).mp hlookup⟩

/-- The id whose object file would be at a location, if there is one. -/
def idAt? (l : Location) : Option ObjectId :=
  ObjectId.parse? (String.join (l.drop (l.length - 2)))

/-- An object's file tells its id. -/
theorem idAt?_append (front : Location) (id : ObjectId) :
    idAt? (front ++ [id.fanOut.1, id.fanOut.2]) = some id := by
  have htext : id.fanOut.1 ++ id.fanOut.2 = id.text := by
    rw [ObjectId.fanOut, ObjectId.text, ← String.ofList_append, List.take_append_drop]
  have hjoin : String.join ((front ++ [id.fanOut.1, id.fanOut.2]).drop
      ((front ++ [id.fanOut.1, id.fanOut.2]).length - 2)) = id.text := by
    rw [← htext]
    simp [String.join]
  rw [idAt?, hjoin, ObjectId.parse?_text]

/-- The ids whose object files the locations of a tree could be. -/
def fileIds (t : FileTree) : List ObjectId := t.entries.filterMap fun e => idAt? e.1

/-- There are no more ids with object files than entries. -/
theorem length_fileIds_le (t : FileTree) : (fileIds t).length ≤ t.entries.length :=
  List.length_filterMap_le ..

/-- Every id with an object file is among them. -/
theorem mem_fileIds {content : Bytes} (h : db.objectFile t id = .ok content) : id ∈ fileIds t := by
  obtain ⟨front, hmem⟩ := exists_location_of_objectFile h
  exact List.mem_filterMap.mpr ⟨_, hmem, idAt?_append front id⟩

/-- Only finitely many ids have an object file. -/
theorem exists_ids (db : Database) (t : FileTree) :
    ∃ ids : List ObjectId, ∀ id content, db.objectFile t id = .ok content → id ∈ ids :=
  ⟨fileIds t, fun _ _ h => mem_fileIds h⟩

/-- A commit that loads has an object file. -/
theorem objectFile_of_parseCommit {commit : Commit} (h : db.parseCommit t id = .ok commit) :
    ∃ content, db.objectFile t id = .ok content := by
  rw [parseCommit, parseAs, loadTyped, bind_eq_ok_iff] at h
  obtain ⟨typed, h, -⟩ := h
  obtain ⟨object, hload, -⟩ := (bind_eq_ok_iff ..).mp h
  unfold load at hload
  cases hfile : db.objectFile t id with
  | ok content => exact ⟨content, rfl⟩
  | error fault =>
    rw [hfile] at hload
    cases fault <;> cases hload

/-- Only finitely many commits load. -/
theorem exists_commits (db : Database) (t : FileTree) :
    ∃ ids : List ObjectId, ∀ id commit, db.parseCommit t id = .ok commit → id ∈ ids := by
  obtain ⟨ids, hids⟩ := db.exists_ids t
  refine ⟨ids, fun id commit hload => ?_⟩
  obtain ⟨content, hfile⟩ := objectFile_of_parseCommit hload
  exact hids id content hfile

end Database

/-! ## The walk through a database -/

namespace Walk

variable {load : ObjectId → Except StoreError Commit} {start : ObjectId}

/-- A set of ids that contains the start and all parents of every id in it whose commit loads. -/
structure HoldsAncestry (load : ObjectId → Except StoreError Commit) (start : ObjectId)
    (ids : Set ObjectId) : Prop where
  start : start ∈ ids
  parents : ∀ id ∈ ids, ∀ commit, load id = .ok commit → ∀ parent ∈ commit.parents, parent ∈ ids

/-- Off the mainline, the links of an id are the parents of its commit. -/
theorem mem_links_iff {id parent : ObjectId} :
    parent ∈ links load false id ↔ ∃ commit, load id = .ok commit ∧ parent ∈ commit.parents := by
  unfold links
  split
  · rename_i commit hload
    simp [hload]
  · rename_i err hload
    simp [hload]

/-- What a walk off the mainline can reach is the smallest set that holds the ancestry. -/
theorem isLeast_reaches (load : ObjectId → Except StoreError Commit) (start : ObjectId) :
    IsLeast {ids | HoldsAncestry load start ids} {id | Reaches load false start id} := by
  constructor
  · refine ⟨Reaches.start, ?_⟩
    intro id hid commit hload parent hparent
    exact Reaches.link hid (mem_links_iff.mpr ⟨commit, hload, hparent⟩)
  · intro ids hids id hid
    induction hid with
    | start => exact hids.start
    | link _ hparent ih =>
      obtain ⟨commit, hload, hmem⟩ := mem_links_iff.mp hparent
      exact hids.parents _ ih commit hload _ hmem

/-- A walk through a database comes to its end, whatever the files of the database hold. Its visits
are the smallest set of ids that holds the ancestry of its start, each once, with its commit or with
the reason why that does not load. -/
theorem visits_ancestry (db : Database) (t : FileTree) (start : ObjectId) :
    ∃ vs : List Visit,
      (Walk.start false start).Yields (db.parseCommit t) vs ∧
      (∀ limit, (Walk.start false start).visits (db.parseCommit t) limit = vs.take limit) ∧
      (vs.map Visit.id).Nodup ∧
      IsLeast {ids | HoldsAncestry (db.parseCommit t) start ids} {id | id ∈ vs.map Visit.id} ∧
      ∀ visit ∈ vs, visit.commit = db.parseCommit t visit.id := by
  obtain ⟨ids, hids⟩ := db.exists_commits t
  obtain ⟨vs, hyields, hcommits, hnodup, hmem⟩ := exists_yields hids
  refine ⟨vs, hyields, hyields.visits, hnodup, ?_, hcommits⟩
  have hreaches : {id | id ∈ vs.map Visit.id} = {id | Reaches (db.parseCommit t) false start id} :=
    Set.ext hmem
  rw [hreaches]
  exact isLeast_reaches (db.parseCommit t) start

end Walk

end ObjectStore
