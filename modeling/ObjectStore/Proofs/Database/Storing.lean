import ObjectStore.Proofs.Database.Integrity
import ObjectStore.Proofs.FileTree.Success

/-!
# Storing in any order

What storing an object adds to a repository depends on the object alone, and nothing that is there
is changed by it. So objects can be stored in any order, and any number of times.

* `Database.Gives`: what storing an object gives, its id or a path that is too long.
* `Repository.Adds`: what it adds, if nothing is there: the file of the object and the directories
  on the way. `Repository.Gains` says of two trees that one has what some objects add to the other,
  and `Gains.lookup_eq` that there is only one such tree.
* `Tidy.storeRaw_gains`: storing an object does that, in every state of a repository.
* `Repository.stored_in_any_order`: lists of the same objects give the same ids and end in the same
  tree. The hash has to tell the objects apart.
-/

namespace ObjectStore

/-! ## The lengths of paths -/

/-- A character has at least one byte. -/
theorem le_utf8ByteSize_ofList (l : List Char) : l.length ≤ (String.ofList l).utf8ByteSize := by
  induction l with
  | nil => simp
  | cons c l ih =>
    have hc := c.utf8Size_pos
    rw [String.ofList_cons, String.utf8ByteSize_append, String.utf8ByteSize_singleton,
      List.length_cons]
    omega

/-- The name of an object's file has 38 digits. -/
theorem ObjectId.le_utf8ByteSize_file (id : ObjectId) : 38 ≤ id.fanOut.2.utf8ByteSize := by
  have hname := le_utf8ByteSize_ofList (id.hex.drop 2)
  rwa [List.length_drop, ObjectId.length_hex] at hname

namespace Database

variable (db : Database) (id : ObjectId)

/-- The path of an object's file is longer than that of its directory by the name. -/
theorem utf8ByteSize_objectPath :
    (db.objectPath id).text.utf8ByteSize = (db.fanPath id).text.utf8ByteSize
      + (db.fanPath id).separator.utf8ByteSize + id.fanOut.2.utf8ByteSize := by
  rw [objectPath_eq, Path.join_eq id.isName_file.isAbsolute_eq, String.utf8ByteSize_append,
    String.utf8ByteSize_append]

/-- The path of an object's directory is shorter than that of its file. -/
theorem utf8ByteSize_fanPath_lt :
    (db.fanPath id).text.utf8ByteSize < (db.objectPath id).text.utf8ByteSize := by
  have hname := id.le_utf8ByteSize_file
  rw [db.utf8ByteSize_objectPath id]
  omega

/-- The name of a staged object has eighteen bytes at most, whatever number is drawn. -/
theorem utf8ByteSize_stagedName_le (draw : UInt32) :
    ("tmp-obj" ++ "-" ++ Numeral.decimal draw.toNat).utf8ByteSize ≤ 18 := by
  have hfront : ("tmp-obj" ++ "-").utf8ByteSize = 8 := by decide
  have hnumber := FileTree.utf8ByteSize_decimal_draw_le draw
  rw [String.utf8ByteSize_append, hfront]
  omega

/-- So the file of an object is staged under a shorter path than its own. -/
theorem utf8ByteSize_stagedPath_lt (draw : UInt32) :
    (FileTree.stagedPath (db.fanPath id) "tmp-obj" draw.toNat).text.utf8ByteSize
      < (db.objectPath id).text.utf8ByteSize := by
  have hname := id.le_utf8ByteSize_file
  have hstaged := utf8ByteSize_stagedName_le draw
  rw [db.utf8ByteSize_objectPath id, FileTree.utf8ByteSize_stagedPath (by decide) (by decide)]
  omega

/-! ## Results -/

/-- What storing an object gives: the id that is its hash, unless the path of its file is too long
for any file. -/
inductive Gives (db : Database) (object : RawObject) : Except StoreError ObjectId → Prop
  | id {id : ObjectId} (hhash : Canonical.hash object.kind object.payload = .ok id)
      (hshort : (db.objectPath id).text.utf8ByteSize < FileTree.pathLimit) :
      Gives db object (.ok id)
  | tooLong {id : ObjectId} (hhash : Canonical.hash object.kind object.payload = .ok id)
      (hlong : FileTree.pathLimit ≤ (db.objectPath id).text.utf8ByteSize) (path : Path) :
      Gives db object (.error (.io path .nameTooLong))

/-- Store objects one after the other, whatever comes of each. For each one a number is drawn. -/
def storeEach (db : Database) (draws : Nat → UInt32) :
    List RawObject → FileTree → List (Except StoreError ObjectId) × FileTree
  | [], t => ([], t)
  | object :: rest, t =>
    let first := db.storeRaw (draws 0) object.kind object.payload t
    let others := storeEach db (fun i => draws (i + 1)) rest first.2
    (first.1 :: others.1, others.2)

end Database

namespace RawObject

/-- The id under which an object is kept. -/
def id (object : RawObject) : ObjectId := Canonical.idOf object.kind object.payload

/-- The file of an object. -/
def file (object : RawObject) : Node :=
  .file (Zlib.compress (Canonical.form object.kind object.payload))

end RawObject

/-- A path that is short enough leaves only the hash. -/
theorem Database.Gives.eq_hash {db : Database} {object : RawObject}
    {result : Except StoreError ObjectId} (h : db.Gives object result)
    (hshort : (db.objectPath object.id).text.utf8ByteSize < FileTree.pathLimit) :
    result = Canonical.hash object.kind object.payload := by
  cases h with
  | id hhash => exact hhash.symm
  | tooLong hhash hlong =>
    rename_i id path
    have hid : id = object.id := by
      unfold Canonical.hash at hhash
      split_ifs at hhash
      exact (Except.ok.inj hhash).symm
    rw [hid] at hlong
    exact absurd hshort (Nat.not_lt.mpr hlong)

namespace Repository

variable {repo : Repository} {r l : Location} {t t' t'' t₀ : FileTree} {node : Node}
variable {object : RawObject} {objects order : List RawObject} {draws draws' : Nat → UInt32}

/-! ## What is added -/

/-- Where the directory of an object's file is kept. -/
def fanPlace (r : Location) (id : ObjectId) : Location := r ++ [".git", "objects", id.fanOut.1]

/-- The file of an object is kept in its directory. -/
theorem objectPlace_eq (r : Location) (id : ObjectId) :
    objectPlace r id = fanPlace r id ++ [id.fanOut.2] := by
  simp [objectPlace, fanPlace]

/-- No object is kept on the way to the directory of another one. -/
theorem not_objectPlace_prefix_fanPlace (a b : ObjectId) : ¬ objectPlace r a <+: fanPlace r b :=
  not_objectPlace_prefix (by simp) a

/-- What storing an object adds to a repository with the root at `r`, where nothing is: the
directories of its file, if their path can be followed, and the file, if its path can. -/
inductive Adds (repo : Repository) (r : Location) (object : RawObject) : Location → Node → Prop
  | directory {l : Location}
      (hshort : (repo.database.fanPath object.id).text.utf8ByteSize < FileTree.pathLimit)
      (hl : l <+: fanPlace r object.id) : Adds repo r object l .directory
  | file (hshort : (repo.database.objectPath object.id).text.utf8ByteSize < FileTree.pathLimit) :
      Adds repo r object (objectPlace r object.id) object.file

/-- Tree `t'` is `t` with what these objects add, where nothing was. -/
def Gains (repo : Repository) (r : Location) (objects : List RawObject) (t t' : FileTree) : Prop :=
  ∀ l node, t'.lookup l = some node ↔
    t.lookup l = some node ∨
      t.lookup l = none ∧ ∃ object ∈ objects, repo.Adds r object l node

/-- No two objects add different things in one place. -/
theorem Adds.unique (hfree : CollisionFree objects) {a b : RawObject} (ha : a ∈ objects)
    (hb : b ∈ objects) {x y : Node} (hx : repo.Adds r a l x) (hy : repo.Adds r b l y) : x = y := by
  generalize hplace : l = place at hy
  cases hx with
  | directory _ hl =>
    cases hy with
    | directory => rfl
    | file =>
      rw [hplace] at hl
      exact absurd hl (not_objectPlace_prefix_fanPlace _ _)
  | file =>
    cases hy with
    | directory _ hl =>
      rw [← hplace] at hl
      exact absurd hl (not_objectPlace_prefix_fanPlace _ _)
    | file =>
      obtain hform | hcollision := Canonical.idOf_eq_idOf_iff.mp (objectPlace_injective hplace)
      · rw [RawObject.file, RawObject.file, hform]
      · exact absurd hcollision (hfree a ha b hb)

namespace Gains

/-- Storing no objects adds nothing. -/
theorem nil (t : FileTree) : repo.Gains r [] t t := fun l node => by simp

/-- A directory stays where it is. -/
theorem directory (h : repo.Gains r objects t t') (hl : t.lookup l = some .directory) :
    t'.lookup l = some .directory :=
  (h l _).mpr (Or.inl hl)

/-- One object and then others add what they add together. -/
theorem cons (hfree : CollisionFree (object :: objects)) (h : repo.Gains r [object] t t')
    (h' : repo.Gains r objects t' t'') : repo.Gains r (object :: objects) t t'' := by
  intro l node
  rw [h' l node, h l node]
  constructor
  · rintro ((hold | ⟨hnone, other, hother, hadds⟩) | ⟨hnone', other, hother, hadds⟩)
    · exact Or.inl hold
    · obtain rfl := List.mem_singleton.mp hother
      exact Or.inr ⟨hnone, other, List.mem_cons_self, hadds⟩
    · refine Or.inr ⟨?_, other, List.mem_cons_of_mem _ hother, hadds⟩
      by_contra hthere
      obtain ⟨old, hold⟩ := Option.ne_none_iff_exists'.mp hthere
      rw [(h l old).mpr (Or.inl hold)] at hnone'
      cases hnone'
  · rintro (hold | ⟨hnone, other, hother, hadds⟩)
    · exact Or.inl (Or.inl hold)
    · rcases List.mem_cons.mp hother with rfl | hrest
      · exact Or.inl (Or.inr ⟨hnone, other, List.mem_singleton_self _, hadds⟩)
      -- The first object may have put there what this one adds, and then it is the same.
      · cases hfirst : t'.lookup l with
        | none => exact Or.inr ⟨rfl, other, hrest, hadds⟩
        | some first =>
          rcases (h l first).mp hfirst with hold | ⟨-, one, hone, hadds'⟩
          · rw [hnone] at hold
            cases hold
          · obtain rfl := List.mem_singleton.mp hone
            obtain rfl := Adds.unique hfree List.mem_cons_self hother hadds' hadds
            exact Or.inl (Or.inr ⟨hnone, one, List.mem_singleton_self _, hadds'⟩)

/-- What the same objects add, in whatever order, makes the same tree. -/
theorem lookup_eq (hsame : ∀ object, object ∈ order ↔ object ∈ objects)
    (h : repo.Gains r objects t t') (h' : repo.Gains r order t t'') (l : Location) :
    t''.lookup l = t'.lookup l := by
  apply Option.ext
  intro node
  rw [h' l node, h l node]
  simp only [hsame]

end Gains

/-! ## The directory of an object -/

/-- No file is on the way to the directory of an object. -/
theorem Tidy.unblocked_fanPath (h : repo.Tidy r t) {id : ObjectId}
    (hshort : (repo.database.fanPath id).text.utf8ByteSize < FileTree.pathLimit) :
    t.Unblocked r (repo.database.fanPath id) [".git", "objects", id.fanOut.1] where
  short := hshort
  names_short n hn := utf8ByteSize_le_of_mem_object id n (List.mem_append_left [id.fanOut.2] hn)
  no_file front content hfront hlookup := by
    have hway : front <+: [".git", "objects", id.fanOut.1, id.fanOut.2] :=
      hfront.trans (List.prefix_append _ [id.fanOut.2])
    have hplace := (h.part front _ hlookup).eq_of_prefix_object hway
    rw [hplace] at hfront
    simpa using hfront.length_le

/-- Tree `made` is `t` after the directory of an object was made, if it was missing. -/
structure HasFan (repo : Repository) (r : Location) (id : ObjectId) (t made : FileTree) : Prop
    extends repo.IsAt r made where
  create : FileTree.createDirectories (repo.database.fanPath id) t = (.ok (), made)
  fan : made.lookup (fanPlace r id) = some .directory
  lookup_iff : ∀ l node, made.lookup l = some node ↔
    t.lookup l = some node ∨ t.lookup l = none ∧ l <+: fanPlace r id ∧ node = .directory

/-- It can be made if its path is short enough. -/
theorem Tidy.exists_hasFan (h : repo.Tidy r t) {id : ObjectId}
    (hshort : (repo.database.fanPath id).text.utf8ByteSize < FileTree.pathLimit) :
    ∃ made, repo.HasFan r id t made := by
  have hextends := h.fanPath_extends id
  obtain ⟨made, hmake, hmade⟩ := FileTree.createDirectories_of_unblocked h.root h.directory
    hextends (List.cons_ne_nil _ _) (h.unblocked_fanPath hshort)
  obtain ⟨-, hdir⟩ := FileTree.createDirectories_extends hmake h.root h.directory hextends
    (List.cons_ne_nil _ _)
  exact ⟨made, h.toIsAt.mono fun l hl => (hmade l _).mpr (Or.inl hl), hmake, hdir rfl, hmade⟩

namespace HasFan

variable {id : ObjectId} {made : FileTree} (h : repo.HasFan r id t made)

include h

/-- What is not on the way to it is as it was before. -/
theorem lookup_eq_none (hnone : t.lookup l = none) (hl : ¬ l <+: fanPlace r id) :
    made.lookup l = none := by
  by_contra hthere
  obtain ⟨node, hnode⟩ := Option.ne_none_iff_exists'.mp hthere
  rcases (h.lookup_iff l node).mp hnode with hold | ⟨-, hway, -⟩
  · rw [hnone] at hold
    cases hold
  · exact hl hway

/-- The path of the object's directory leads to it. -/
theorem locate_fanPath
    (hshort : (repo.database.fanPath id).text.utf8ByteSize < FileTree.pathLimit) :
    made.locate (repo.database.fanPath id) = .ok (fanPlace r id) := by
  refine (FileTree.locate_extends_eq_ok_iff h.root (h.fanPath_extends id)).mpr
    ⟨hshort, rfl, fun n hn => ?_, fun _ => ?_⟩
  · exact utf8ByteSize_le_of_mem_object id n (List.mem_append_left [id.fanOut.2] hn)
  · exact FileTree.directory_of_prefix h.fan
      ((List.prefix_append_right_inj r).mpr (List.dropLast_prefix _))

/-- The path of the object leads to its place there. -/
theorem locate_objectPath
    (hshort : (repo.database.objectPath id).text.utf8ByteSize < FileTree.pathLimit) :
    made.locate (repo.database.objectPath id) = .ok (objectPlace r id) :=
  (FileTree.locate_extends_eq_ok_iff h.root (h.objectPath_extends id)).mpr
    ⟨hshort, rfl, utf8ByteSize_le_of_mem_object id, fun _ => h.fan⟩

/-- No staged file is there, as none is ever left behind. -/
theorem lookup_staged (htidy : repo.Tidy r t) (number : Nat) :
    made.lookup (fanPlace r id ++ ["tmp-obj" ++ "-" ++ Numeral.decimal number]) = none := by
  apply h.lookup_eq_none
  · by_contra hthere
    obtain ⟨node, hnode⟩ := Option.ne_none_iff_exists'.mp hthere
    rw [fanPlace, List.append_assoc] at hnode
    have hway : [".git", "objects"] <+: [".git", "objects", id.fanOut.1] := ⟨[id.fanOut.1], rfl⟩
    refine (htidy.part _ node hnode).not_isStagedName (Or.inr hway) ⟨"tmp-obj", by simp, ?_⟩
    simp
  · intro hway
    have hlength := hway.length_le
    rw [List.length_append, List.length_singleton] at hlength
    omega

/-- So the drawn number is the one of the staged file. -/
theorem freshNumber_eq (htidy : repo.Tidy r t) (draw : UInt32)
    (hshort : (repo.database.fanPath id).text.utf8ByteSize < FileTree.pathLimit) :
    made.freshNumber (repo.database.fanPath id) "tmp-obj" draw = draw.toNat :=
  FileTree.freshNumber_of_lookup_eq_none (h.locate_fanPath hshort) h.fan (by decide) (by decide)
    (h.lookup_staged htidy draw.toNat)

/-- The file system can hold the staged file of an object whose path is short enough, whatever
number is drawn. -/
theorem isStageable (htidy : repo.Tidy r t) (draw : UInt32)
    (hshort : (repo.database.objectPath id).text.utf8ByteSize < FileTree.pathLimit) :
    FileTree.IsStageable (repo.database.fanPath id) "tmp-obj"
      (made.freshNumber (repo.database.fanPath id) "tmp-obj" draw) := by
  rw [h.freshNumber_eq htidy draw
    (Nat.lt_trans (repo.database.utf8ByteSize_fanPath_lt id) hshort)]
  exact ⟨Nat.lt_trans (repo.database.utf8ByteSize_stagedPath_lt id draw) hshort,
    Nat.le_trans (Database.utf8ByteSize_stagedName_le draw) (by decide)⟩

end HasFan

/-- Storing an object that is not there goes on where its directory was made. -/
theorem HasFan.storeRaw {made : FileTree} (h : repo.HasFan r object.id t made) (draw : UInt32)
    (hkind : Canonical.isKind object.kind = true)
    (habsent : t.isPresent (repo.database.objectPath object.id) = false) :
    repo.database.storeRaw draw object.kind object.payload t =
      (FileTree.replaceFile draw (repo.database.fanPath object.id) "tmp-obj"
        (repo.database.objectPath object.id)
        (Zlib.compress (Canonical.form object.kind object.payload)) >>= fun _ =>
          pure object.id) made := by
  have hmade : FileTree.needDirectory (repo.database.fanPath object.id) t = (.ok (), made) :=
    Change.mapError_of_ok h.create
  unfold RawObject.id at habsent hmade ⊢
  rw [repo.database.storeRaw_of_absent hkind habsent, Change.bind_of_ok hmade]

/-! ## Storing one object -/

/-- Only the directories on the way are added elsewhere than in the place of the object. -/
theorem adds_iff_of_ne (hne : l ≠ objectPlace r object.id)
    (hshort : (repo.database.fanPath object.id).text.utf8ByteSize < FileTree.pathLimit) :
    repo.Adds r object l node ↔ l <+: fanPlace r object.id ∧ node = .directory := by
  constructor
  · intro hadds
    cases hadds with
    | directory _ hl => exact ⟨hl, rfl⟩
    | file => exact absurd rfl hne
  · rintro ⟨hl, rfl⟩
    exact .directory hshort hl

/-- In the place of the object, only its file is. -/
theorem adds_objectPlace_iff
    (hshort : (repo.database.objectPath object.id).text.utf8ByteSize < FileTree.pathLimit) :
    repo.Adds r object (objectPlace r object.id) node ↔ node = object.file := by
  constructor
  · intro hadds
    generalize hplace : objectPlace r object.id = place at hadds
    cases hadds with
    | directory _ hl =>
      rw [← hplace] at hl
      exact absurd hl (not_objectPlace_prefix_fanPlace _ _)
    | file => rfl
  · rintro rfl
    exact .file hshort

/-- An object that is there adds nothing: what leads to it is there too. -/
theorem IsAt.gains_of_isPresent (h : repo.IsAt r t)
    (hpresent : t.isPresent (repo.database.objectPath object.id) = true) :
    repo.Gains r [object] t t := by
  obtain ⟨place, there, hplace, hthere⟩ := FileTree.isPresent_iff.mp hpresent
  obtain rfl := h.eq_of_locate_objectPath hplace
  intro l node
  refine ⟨Or.inl, ?_⟩
  rintro (hold | ⟨hnone, other, hother, hadds⟩)
  · exact hold
  obtain rfl := List.mem_singleton.mp hother
  cases hadds with
  | file =>
    rw [hnone] at hthere
    cases hthere
  | directory _ hl =>
    rw [objectPlace_eq] at hthere
    have hdir := FileTree.lookup_of_append (hthere ▸ Option.some_ne_none _) (by simp)
    rw [FileTree.directory_of_prefix hdir hl] at hnone
    cases hnone

/-- Storing an object whose path is short enough gives its id. -/
theorem Tidy.storeRaw_of_short (h : repo.Tidy r t) (draw : UInt32)
    (hkind : Canonical.isKind object.kind = true)
    (hshort : (repo.database.objectPath object.id).text.utf8ByteSize < FileTree.pathLimit) :
    ∃ t', repo.database.storeRaw draw object.kind object.payload t = (.ok object.id, t') ∧
      repo.Gains r [object] t t' := by
  cases hpresent : t.isPresent (repo.database.objectPath object.id) with
  | true =>
    exact ⟨t, repo.database.storeRaw_of_isPresent hkind hpresent,
      h.toIsAt.gains_of_isPresent hpresent⟩
  | false =>
    have hfanShort := Nat.lt_trans (repo.database.utf8ByteSize_fanPath_lt object.id) hshort
    obtain ⟨made, hmade⟩ := h.exists_hasFan hfanShort
    have hplace := hmade.locate_objectPath hshort
    have hnone : t.lookup (objectPlace r object.id) = none := by
      by_contra hthere
      obtain ⟨node, hnode⟩ := Option.ne_none_iff_exists'.mp hthere
      have hlocate := h.locate_objectPath_of_lookup hmade.toIsAt hplace hthere
      rw [FileTree.isPresent_iff.mpr ⟨_, node, hlocate, hnode⟩] at hpresent
      cases hpresent
    have hnotDir : made.lookup (objectPlace r object.id) ≠ some .directory := by
      simp [hmade.lookup_eq_none hnone (not_objectPlace_prefix_fanPlace _ _)]
    have hwrite := FileTree.replaceFile_of_isStageable (hmade.locate_fanPath hfanShort) hmade.fan
      (by decide) (by decide) (hmade.isStageable h draw hshort) hplace hnotDir
      (Zlib.compress (Canonical.form object.kind object.payload))
    refine ⟨made.put (objectPlace r object.id) object.file, ?_, fun l node => ?_⟩
    · rw [hmade.storeRaw draw hkind hpresent, Change.bind_of_ok hwrite]
      rfl
    · rw [FileTree.lookup_put (FileTree.accepts_of_locate hplace hnotDir)]
      simp only [List.mem_singleton, exists_eq_left]
      split_ifs with hl
      · rw [hl, adds_objectPlace_iff hshort, hnone]
        simp [eq_comm]
      · rw [adds_iff_of_ne hl hfanShort, hmade.lookup_iff l node]

/-- Storing an object whose path is too long fails for that reason. The directory of its file may
have been made. -/
theorem Tidy.storeRaw_of_long (h : repo.Tidy r t) (draw : UInt32)
    (hkind : Canonical.isKind object.kind = true)
    (hlong : FileTree.pathLimit ≤ (repo.database.objectPath object.id).text.utf8ByteSize) :
    ∃ path t', repo.database.storeRaw draw object.kind object.payload t
        = (.error (.io path .nameTooLong), t') ∧ repo.Gains r [object] t t' := by
  have hlocate : ∀ s, repo.IsAt r s →
      s.locate (repo.database.objectPath object.id) = .error .nameTooLong := by
    intro s hs
    rw [FileTree.locate_extends hs.root (hs.objectPath_extends object.id), if_pos hlong]
  have habsent : t.isPresent (repo.database.objectPath object.id) = false := by
    rw [FileTree.isPresent, FileTree.nodeAt_of_locate_error (hlocate t h.toIsAt)]
    rfl
  have hne : ∀ l node, repo.Adds r object l node → l ≠ objectPlace r object.id := by
    intro l node hadds
    cases hadds with
    | directory _ hl =>
      rintro rfl
      exact not_objectPlace_prefix_fanPlace _ _ hl
    | file hshort => exact absurd hshort (Nat.not_lt.mpr hlong)
  by_cases hfan : (repo.database.fanPath object.id).text.utf8ByteSize < FileTree.pathLimit
  · obtain ⟨made, hmade⟩ := h.exists_hasFan hfan
    have hgains : repo.Gains r [object] t made := by
      intro l node
      simp only [List.mem_singleton, exists_eq_left]
      rw [hmade.lookup_iff l node]
      refine or_congr_right (and_congr_right fun _ => ?_)
      constructor
      · rintro ⟨hl, rfl⟩
        exact .directory hfan hl
      · intro hadds
        exact (adds_iff_of_ne (hne l node hadds) hfan).mp hadds
    obtain ⟨err, hfail⟩ | ⟨l, hl, -⟩ := FileTree.replaceFile_cases draw
      (repo.database.fanPath object.id) "tmp-obj" (repo.database.objectPath object.id)
      (Zlib.compress (Canonical.form object.kind object.payload)) made
    · obtain ⟨path, rfl⟩ | hdir := FileTree.replaceFile_error (hmade.locate_fanPath hfan) hmade.fan
        (by decide) (by decide) hmade.root (hmade.objectPath_extends object.id) hmade.fan hfail
      · refine ⟨path, made, ?_, hgains⟩
        rw [hmade.storeRaw draw hkind habsent]
        exact Change.bind_of_error hfail
      · obtain ⟨l, hl, -⟩ := FileTree.isDirectory_iff.mp hdir
        rw [hlocate made hmade.toIsAt] at hl
        cases hl
    · rw [hlocate made hmade.toIsAt] at hl
      cases hl
  · have hfanLocate : t.locate (repo.database.fanPath object.id) = .error .nameTooLong := by
      rw [FileTree.locate_extends h.root (h.fanPath_extends object.id),
        if_pos (Nat.not_lt.mp hfan)]
    have hfail : FileTree.needDirectory (repo.database.fanPath object.id) t
        = (.error (.io (repo.database.fanPath object.id) .nameTooLong), t) :=
      Change.mapError_of_error (FileTree.createDirectories_of_locate_error hfanLocate (by decide))
    refine ⟨repo.database.fanPath object.id, t, ?_, fun l node => ⟨Or.inl, ?_⟩⟩
    · exact (repo.database.storeRaw_of_absent hkind habsent).trans (Change.bind_of_error hfail)
    · rintro (hold | ⟨-, other, hother, hadds⟩)
      · exact hold
      · obtain rfl := List.mem_singleton.mp hother
        cases hadds with
        | directory hshort => exact absurd hshort hfan
        | file hshort => exact absurd hshort (Nat.not_lt.mpr hlong)

/-- Storing an object adds what it adds and nothing else, whatever comes of it. -/
theorem Tidy.storeRaw_gains (h : repo.Tidy r t) (draw : UInt32)
    (hkind : Canonical.isKind object.kind = true) :
    repo.database.Gives object (repo.database.storeRaw draw object.kind object.payload t).1 ∧
      repo.Gains r [object] t (repo.database.storeRaw draw object.kind object.payload t).2 := by
  have hhash : Canonical.hash object.kind object.payload = .ok object.id := by
    rw [Canonical.hash, hkind]
    rfl
  by_cases hshort :
      (repo.database.objectPath object.id).text.utf8ByteSize < FileTree.pathLimit
  · obtain ⟨t', hstore, hgains⟩ := h.storeRaw_of_short draw hkind hshort
    rw [hstore]
    exact ⟨.id hhash hshort, hgains⟩
  · obtain ⟨path, t', hstore, hgains⟩ := h.storeRaw_of_long draw hkind (Nat.not_lt.mp hshort)
    rw [hstore]
    exact ⟨.tooLong hhash (Nat.not_lt.mp hshort) path, hgains⟩

/-! ## Storing objects one after the other -/

/-- So does storing objects one after the other. -/
theorem Tidy.storeEach_gains (h : repo.Tidy r t) (draws : Nat → UInt32)
    (hkind : ∀ object ∈ objects, Canonical.isKind object.kind = true)
    (hfree : CollisionFree objects) :
    List.Forall₂ repo.database.Gives objects (repo.database.storeEach draws objects t).1 ∧
      repo.Gains r objects t (repo.database.storeEach draws objects t).2 := by
  induction objects generalizing t draws with
  | nil => exact ⟨.nil, Gains.nil t⟩
  | cons object objects ih =>
    obtain ⟨hgives, hgains⟩ := h.storeRaw_gains (draws 0) (hkind object List.mem_cons_self)
    have hnext : repo.Tidy r (repo.database.storeRaw (draws 0) object.kind object.payload t).2 :=
      h.run_operation ⟨draws 0, .storeRaw object.kind object.payload⟩
    obtain ⟨hrest, hothers⟩ := ih hnext (fun i => draws (i + 1))
      (fun other hother => hkind other (List.mem_cons_of_mem _ hother))
      (fun a ha b hb => hfree a (List.mem_cons_of_mem _ ha) b (List.mem_cons_of_mem _ hb))
    exact ⟨.cons hgives hrest, hgains.cons hfree hothers⟩

/-- Objects that were added have their files, and no other object that was there before has one of
these. -/
theorem Sound.objectFile_of_gains {before : List RawObject} (h : repo.Sound r before t)
    (hfree : CollisionFree (before ++ objects)) (hgains : repo.Gains r objects t t')
    (hmem : object ∈ objects)
    (hshort : (repo.database.objectPath object.id).text.utf8ByteSize < FileTree.pathLimit) :
    repo.database.objectFile t' object.id
      = .ok (Zlib.compress (Canonical.form object.kind object.payload)) := by
  have hfile : t'.lookup (objectPlace r object.id) = some object.file := by
    rw [hgains]
    cases hthere : t.lookup (objectPlace r object.id) with
    | none => exact Or.inr ⟨rfl, object, hmem, .file hshort⟩
    | some node =>
      obtain ⟨other, hother, -, hid, rfl⟩ := h.object _ _ hthere
      obtain hform | hcollision := Canonical.idOf_eq_idOf_iff.mp hid
      · rw [hform]
        exact Or.inl rfl
      · exact absurd hcollision
          (hfree other (List.mem_append_left _ hother) object (List.mem_append_right _ hmem))
  have hat : repo.IsAt r t' := h.toIsAt.mono fun _ => hgains.directory
  exact (FileTree.readFile_extends_iff hat.root (hat.objectPath_extends object.id)).mpr
    ⟨hshort, utf8ByteSize_le_of_mem_object object.id, hfile⟩

/-- The results of storing objects, and the tree that it ends in: each has given its id, and its
file inflates to its canonical form, unless its path is too long. -/
structure HasStored (repo : Repository) (objects : List RawObject)
    (results : List (Except StoreError ObjectId)) (t : FileTree) : Prop where
  results : List.Forall₂ repo.database.Gives objects results
  files : ∀ object ∈ objects,
    (repo.database.objectPath object.id).text.utf8ByteSize < FileTree.pathLimit →
    ∃ stream, repo.database.objectFile t object.id = .ok stream ∧
      Zlib.inflate stream = .ok (Canonical.form object.kind object.payload)

/-- Where no path is too long, the results are the hashes. -/
theorem HasStored.results_eq {results : List (Except StoreError ObjectId)}
    (h : repo.HasStored objects results t) (hshort : ∀ object ∈ objects,
      (repo.database.objectPath object.id).text.utf8ByteSize < FileTree.pathLimit) :
    results = objects.map fun object => Canonical.hash object.kind object.payload := by
  have hresults := h.results
  clear h
  induction hresults with
  | nil => rfl
  | cons hgives _ ih =>
    rw [List.map_cons, ← ih fun object hmem => hshort object (List.mem_cons_of_mem _ hmem),
      hgives.eq_hash (hshort _ List.mem_cons_self)]

/-- Storing objects one after the other stores each of them, in a state whose objects the hash tells
apart from these. -/
theorem Sound.hasStored {before : List RawObject} (h : repo.Sound r before t)
    (htidy : repo.Tidy r t) (draws : Nat → UInt32)
    (hkind : ∀ object ∈ objects, Canonical.isKind object.kind = true)
    (hfree : CollisionFree (before ++ objects)) :
    repo.HasStored objects (repo.database.storeEach draws objects t).1
        (repo.database.storeEach draws objects t).2 ∧
      repo.Gains r objects t (repo.database.storeEach draws objects t).2 := by
  obtain ⟨hresults, hgains⟩ := htidy.storeEach_gains draws hkind
    fun a ha b hb => hfree a (List.mem_append_right _ ha) b (List.mem_append_right _ hb)
  refine ⟨⟨hresults, fun object hmem hshort => ?_⟩, hgains⟩
  exact ⟨_, h.objectFile_of_gains hfree hgains hmem hshort, Zlib.inflate_compress _⟩

/-- Lists of the same objects, in whatever order and with whatever repeats, give the same id for
each object and end in the same tree, in every state after a run from a fresh root and whatever
numbers are drawn. The hash has to tell them and the objects of that run apart. -/
theorem stored_in_any_order (hfresh : repo.IsFresh r t₀) (ops : List Operation)
    (draws draws' : Nat → UInt32)
    (ht : repo.run ops t₀ = t) (hkind : ∀ object ∈ objects, Canonical.isKind object.kind = true)
    (hfree : CollisionFree (repo.stored ops t₀ ++ objects))
    (hsame : ∀ object, object ∈ order ↔ object ∈ objects) :
    repo.HasStored objects (repo.database.storeEach draws objects t).1
        (repo.database.storeEach draws objects t).2 ∧
      repo.HasStored order (repo.database.storeEach draws' order t).1
        (repo.database.storeEach draws' order t).2 ∧
      ∀ l, (repo.database.storeEach draws' order t).2.lookup l
        = (repo.database.storeEach draws objects t).2.lookup l := by
  have hsound := hfresh.sound.run ops
  have htidy := hfresh.tidy.run ops
  rw [List.nil_append] at hsound
  rw [ht] at hsound htidy
  have hkind' : ∀ object ∈ order, Canonical.isKind object.kind = true :=
    fun object hmem => hkind object ((hsame object).mp hmem)
  have hfree' : CollisionFree (repo.stored ops t₀ ++ order) := by
    intro a ha b hb
    rw [List.mem_append, hsame, ← List.mem_append] at ha hb
    exact hfree a ha b hb
  obtain ⟨hstored, hgains⟩ := hsound.hasStored htidy draws hkind hfree
  obtain ⟨hstored', hgains'⟩ := hsound.hasStored htidy draws' hkind' hfree'
  exact ⟨hstored, hstored', hgains.lookup_eq hsame hgains'⟩

/-- Two blobs, one of which is there already, and the other one stored twice. -/
theorem stored_in_any_order_blobs :
    let repo : Repository := ⟨⟨"/"⟩, {}⟩
    let one : RawObject := ⟨"blob", [1]⟩
    let two : RawObject := ⟨"blob", [2]⟩
    let ops : List Operation := [⟨9, .storeRaw "blob" [1]⟩]
    let draws : Nat → UInt32 := fun _ => 0
    let draws' : Nat → UInt32 := UInt32.ofNat
    let t := repo.run ops FileTree.empty
    repo.IsFresh [] FileTree.empty ∧ CollisionFree (repo.stored ops FileTree.empty ++ [one, two]) ∧
      (∀ object ∈ [one, two], Canonical.isKind object.kind = true) ∧
      (∀ object, object ∈ [two, one, two] ↔ object ∈ [one, two]) ∧
      (repo.database.storeEach draws' [two, one, two] t).1
        = [Canonical.hash "blob" [2], Canonical.hash "blob" [1], Canonical.hash "blob" [2]] ∧
      (∀ l, (repo.database.storeEach draws' [two, one, two] t).2.lookup l
        = (repo.database.storeEach draws [one, two] t).2.lookup l) ∧
      ∃ stream, repo.database.objectFile (repo.database.storeEach draws' [two, one, two] t).2 two.id
          = .ok stream ∧
        Zlib.inflate stream = .ok (Canonical.form "blob" [2]) := by
  intro repo one two ops draws draws' t
  have hfresh : repo.IsFresh [] FileTree.empty := isFresh_empty rfl
  have hstored : repo.stored ops FileTree.empty = [one] := by decide +kernel
  have hfree : CollisionFree (repo.stored ops FileTree.empty ++ [one, two]) := by
    rw [hstored]
    decide +kernel
  have hkind : ∀ object ∈ [one, two], Canonical.isKind object.kind = true := by decide
  have hsame : ∀ object, object ∈ [two, one, two] ↔ object ∈ [one, two] := by
    intro object
    simp only [List.mem_cons, List.not_mem_nil, or_false]
    rw [or_left_comm, or_self]
  have hshort : ∀ object ∈ [two, one, two],
      (repo.database.objectPath object.id).text.utf8ByteSize < FileTree.pathLimit := by
    decide +kernel
  have hrun : repo.run ops FileTree.empty = t := rfl
  obtain ⟨-, hafter, hlookup⟩ := stored_in_any_order hfresh ops draws draws' hrun hkind hfree hsame
  have hfile := hafter.files two List.mem_cons_self (hshort two List.mem_cons_self)
  exact ⟨hfresh, hfree, hkind, hsame, hafter.results_eq hshort, hlookup, hfile⟩

/-- In a fresh root whose path is as long as a path may be, storing an object does not give the id
that is its hash, as the path of its file is too long. -/
theorem storeEach_of_deep_root :
    let repo : Repository := ⟨⟨String.ofList (List.replicate 4095 '/')⟩, {}⟩
    let object : RawObject := ⟨"blob", Bytes.ofString "hello\n"⟩
    repo.IsFresh [] FileTree.empty ∧ Canonical.isKind object.kind = true ∧
      CollisionFree (repo.stored [] FileTree.empty ++ [object]) ∧
      ∀ draws : Nat → UInt32,
        (repo.database.storeEach draws [object] (repo.run [] FileTree.empty)).1
          ≠ [Canonical.hash object.kind object.payload] := by
  intro repo object
  have hfresh : repo.IsFresh [] FileTree.empty :=
    isFresh_of_locate (FileTree.locate_slashes (by decide) FileTree.empty) rfl
  have hlong : FileTree.pathLimit ≤ (repo.database.objectPath object.id).text.utf8ByteSize :=
    hfresh.pathLimit_le_objectPath (utf8ByteSize_slashes 4095) object.id
  have hfree : CollisionFree [object] := by
    intro a ha b hb hcollision
    rw [List.mem_singleton.mp ha, List.mem_singleton.mp hb] at hcollision
    exact hcollision.1 rfl
  have hkind : Canonical.isKind object.kind = true := by decide
  have hhash : Canonical.hash object.kind object.payload = .ok object.id := by
    rw [Canonical.hash, hkind]
    rfl
  refine ⟨hfresh, hkind, hfree, fun draws => ?_⟩
  obtain ⟨path, t', hstore, -⟩ := hfresh.tidy.storeRaw_of_long (draws 0) hkind hlong
  rw [run_nil, Database.storeEach, hstore, hhash]
  intro hresults
  obtain ⟨hresult, -⟩ := List.cons.inj hresults
  cases hresult

end Repository

end ObjectStore
