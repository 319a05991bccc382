import ObjectStore.Proofs.Database.Persistence

/-!
# The store stays whole

What stands in the root of a repository, along every run from a fresh root.

* `Repository.IsPart`: the directories and files that a repository is made of.
  `Repository.Tidy.run` says that every run keeps the root free of everything else, so nothing that
  was staged is left behind, by operations that failed as little as by others.
* `Repository.Tidy.load_of_not_contains`: an object that is not there is not found, unless its path is
  too long for any file.
* `Repository.store_intact`: the files below the directory of objects are files of objects, each of
  the object whose id says where it is, and no object that the store has is corrupt.
-/

namespace ObjectStore

/-! ## The lengths of names -/

/-- A character has four bytes at most. -/
theorem utf8ByteSize_ofList_le (l : List Char) : (String.ofList l).utf8ByteSize ≤ 4 * l.length := by
  induction l with
  | nil => simp
  | cons c l ih =>
    have hc := c.utf8Size_le_four
    rw [String.ofList_cons, String.utf8ByteSize_append, String.utf8ByteSize_singleton,
      List.length_cons]
    omega

namespace ObjectId

variable (id : ObjectId)

/-- The names of an object's file are short enough for every file tree. -/
theorem utf8ByteSize_fanOut_le :
    id.fanOut.1.utf8ByteSize ≤ FileTree.nameLimit ∧
      id.fanOut.2.utf8ByteSize ≤ FileTree.nameLimit := by
  have hfan := utf8ByteSize_ofList_le (id.hex.take 2)
  have hfile := utf8ByteSize_ofList_le (id.hex.drop 2)
  rw [List.length_take, length_hex] at hfan
  rw [List.length_drop, length_hex] at hfile
  constructor
  · exact Nat.le_trans hfan (by decide)
  · exact Nat.le_trans hfile (by decide)

/-- They start with a digit. -/
theorem head?_fanOut_ne {c : Char} (h : ∀ n < 16, Nat.digitChar n ≠ c) :
    id.fanOut.1.toList.head? ≠ some c ∧ id.fanOut.2.toList.head? ≠ some c := by
  have hc := id.not_mem_hex_of_ne h
  constructor
  · intro hhead
    exact hc (id.mem_hex_of_mem_fan (List.mem_of_mem_head? hhead))
  · intro hhead
    exact hc (id.mem_hex_of_mem_file (List.mem_of_mem_head? hhead))

end ObjectId

namespace Repository

variable {repo : Repository} {r : Location} {t t₀ : FileTree} {names way : List String}
variable {node : Node} {content : Bytes} {name : String}

/-! ## The parts of a repository -/

/-- What a repository keeps where these names lead to from its root. -/
inductive IsPart : List String → Node → Prop where
  /-- The root, the git directory and the directory of objects. -/
  | frame {names : List String} (h : names <+: [".git", "objects"]) : IsPart names .directory
  /-- A directory of object files. -/
  | fan (id : ObjectId) : IsPart [".git", "objects", id.fanOut.1] .directory
  /-- The file of an object. -/
  | object (id : ObjectId) (content : Bytes) :
    IsPart [".git", "objects", id.fanOut.1, id.fanOut.2] (.file content)
  | head (content : Bytes) : IsPart [".git", "HEAD"] (.file content)
  /-- Whatever is kept below the directory of refs. -/
  | refs {names : List String} {node : Node} (h : [".git", "refs"] <+: names) : IsPart names node

namespace IsPart

/-- Whatever is on the way to a directory of object files is a directory. -/
theorem of_prefix_fan {id : ObjectId} (h : names <+: [".git", "objects", id.fanOut.1]) :
    IsPart names .directory := by
  have hfan : [".git", "objects", id.fanOut.1] = [".git", "objects"] ++ [id.fanOut.1] := rfl
  rw [hfan, List.prefix_concat_iff] at h
  rcases h with rfl | h
  · exact fan id
  · exact frame h

/-- Whatever is on the way to the file of a ref is a directory. -/
theorem of_prefix_refs {rest : List String} (h : names <+: [".git", "refs"] ++ rest) :
    IsPart names .directory := by
  obtain hway | hway := List.prefix_or_prefix_of_prefix h (List.prefix_append _ rest)
  · have hrefs : [".git", "refs"] = [".git"] ++ ["refs"] := rfl
    rw [hrefs, List.prefix_concat_iff] at hway
    rcases hway with rfl | hway
    · exact refs List.prefix_rfl
    · exact frame (hway.trans (List.prefix_append _ ["objects"]))
  · exact refs hway

/-- The directories that a write makes are parts of the repository. -/
theorem of_makes {effect : Effect} (h : effect.makes r (r ++ names)) : IsPart names .directory := by
  cases effect with
  | nothing => exact h.elim
  | create =>
    rcases h with h | h
    · exact frame ((List.prefix_append_right_inj r).mp h)
    · exact of_prefix_refs ((List.prefix_append_right_inj r).mp h)
  | store object => exact of_prefix_fan ((List.prefix_append_right_inj r).mp h)
  | point branch id =>
    have hplace : r ++ names <+: branchPlace r branch := h.trans (List.dropLast_prefix _)
    exact of_prefix_refs ((List.prefix_append_right_inj r).mp hplace)

/-- So are the files that it writes. -/
theorem of_writes {effect : Effect} {draw : UInt32}
    (h : effect.writes repo r draw t (r ++ names) content) : IsPart names (.file content) := by
  cases effect with
  | nothing => exact h.elim
  | create =>
    obtain rfl := List.append_cancel_left h.place
    exact head content
  | store object =>
    obtain rfl := List.append_cancel_left h.2.place
    exact IsPart.object _ content
  | point branch id =>
    obtain rfl := List.append_cancel_left h.place
    exact refs (List.prefix_append _ ("heads" :: branch.components))

/-- A file below the directory of objects is that of an object. -/
theorem exists_id (h : IsPart ([".git", "objects"] ++ names) (.file content)) :
    ∃ id : ObjectId, names = [id.fanOut.1, id.fanOut.2] := by
  generalize hplace : [".git", "objects"] ++ names = place at h
  cases h with
  | object id => exact ⟨id, List.append_cancel_left hplace⟩
  | head => simp at hplace
  | refs h =>
    rw [← hplace] at h
    simp at h

/-- Where an object is kept there is only its file, and no other file is on the way to it. -/
theorem eq_of_prefix_object {id : ObjectId} (h : IsPart names (.file content))
    (hway : names <+: [".git", "objects", id.fanOut.1, id.fanOut.2]) :
    names = [".git", "objects", id.fanOut.1, id.fanOut.2] := by
  cases h with
  | object other => exact hway.eq_of_length rfl
  | head => simp at hway
  | refs hrefs =>
    have := hrefs.trans hway
    simp at this

/-- What is kept two names below the directory of objects is kept there for an id. -/
theorem exists_id_of_pair {fan file : String} (h : IsPart [".git", "objects", fan, file] node) :
    ∃ id : ObjectId, fan = id.fanOut.1 ∧ file = id.fanOut.2 := by
  generalize hplace : [".git", "objects", fan, file] = place at h
  cases h with
  | frame h =>
    rw [← hplace] at h
    simp at h
  | fan id => simp at hplace
  | object id => exact ⟨id, by simpa using hplace⟩
  | head => simp at hplace
  | refs h =>
    rw [← hplace] at h
    simp at h

/-- No directory is kept where an object is. -/
theorem not_directory_object (id : ObjectId) :
    ¬ IsPart [".git", "objects", id.fanOut.1, id.fanOut.2] .directory := by
  intro h
  generalize hplace : [".git", "objects", id.fanOut.1, id.fanOut.2] = place at h
  cases h with
  | frame h =>
    rw [← hplace] at h
    simp at h
  | fan other => simp at hplace
  | refs h =>
    rw [← hplace] at h
    simp at h

end IsPart

/-! ## Staged files -/

/-- A name that staged files have. -/
def IsStagedName (name : String) : Prop :=
  ∃ stem ∈ ["tmp-obj", "tmp-ref", "tmp-head"], (stem ++ "-").toList <+: name.toList

/-- The names of staged files start with a letter that no digit of an id is. -/
theorem IsStagedName.head? (h : IsStagedName name) : name.toList.head? = some 't' := by
  obtain ⟨stem, hstem, rest, hname⟩ := h
  rw [← hname]
  simp only [List.mem_cons, List.not_mem_nil, or_false] at hstem
  rcases hstem with rfl | rfl | rfl <;> rfl

/-- Where files are staged no part of the repository has such a name. Branches may have one, but
they are kept below the directory of refs. -/
theorem IsPart.not_isStagedName (h : IsPart (way ++ [name]) node)
    (hway : way = [".git"] ∨ [".git", "objects"] <+: way) : ¬ IsStagedName name := by
  intro hstaged
  have hhead := hstaged.head?
  generalize hplace : way ++ [name] = place at h
  -- the last name of each part, if it is not below the directory of refs
  have hname : place.getLast? = some name := by rw [← hplace, List.getLast?_concat]
  cases h with
  | frame h =>
    rw [← hplace] at h
    rcases hway with rfl | ⟨rest, rfl⟩
    · obtain rfl : name = "objects" := by simpa using h
      exact absurd hhead (by decide)
    · simp at h
  | fan id =>
    obtain rfl : id.fanOut.1 = name := by simpa using hname
    exact (id.head?_fanOut_ne (by decide)).1 hhead
  | object id =>
    obtain rfl : id.fanOut.2 = name := by simpa using hname
    exact (id.head?_fanOut_ne (by decide)).2 hhead
  | head =>
    obtain rfl : "HEAD" = name := by simpa using hname
    exact absurd hhead (by decide)
  | refs h =>
    rw [← hplace] at h
    rcases hway with rfl | ⟨rest, rfl⟩
    · obtain rfl : "refs" = name := by simpa using h
      exact absurd hhead (by decide)
    · simp at h

/-! ## The invariant of runs -/

/-- Nothing stands in the root of the repository but its parts. -/
structure Tidy (repo : Repository) (r : Location) (t : FileTree) : Prop extends repo.IsAt r t where
  part : ∀ names node, t.lookup (r ++ names) = some node → IsPart names node

/-- In a fresh root there is nothing but the root. -/
theorem IsFresh.tidy (h : repo.IsFresh r t) : repo.Tidy r t where
  toIsAt := h.toIsAt
  part names node hnode := by
    by_cases hne : names = []
    · rw [hne, List.append_nil, h.directory, Option.some.injEq] at hnode
      subst hne hnode
      exact .frame List.nil_prefix
    · rw [h.empty names hne] at hnode
      cases hnode

/-- An operation adds nothing but parts of the repository. -/
theorem Tidy.run_operation (h : repo.Tidy r t) (op : Operation) : repo.Tidy r (op.run repo t) where
  toIsAt := h.toIsAt.run_operation op
  part names node hnode := by
    have hgrows := h.apply_grows op.draw (op.action.effect repo t) (r ++ names)
    rw [← op.run_eq_apply_effect, hnode] at hgrows
    obtain hsame | ⟨-, hmade, hmakes⟩ | ⟨-, content, hfile, hwrites⟩ := hgrows
    · exact h.part names node hsame.symm
    · cases hmade
      exact .of_makes hmakes
    · cases hfile
      exact .of_writes hwrites

/-- A run adds nothing but parts of the repository. -/
theorem Tidy.run (h : repo.Tidy r t) (ops : List Operation) : repo.Tidy r (repo.run ops t) := by
  induction ops generalizing t with
  | nil => exact h
  | cons op ops ih => exact ih (h.run_operation op)

/-! ## Loading -/

variable {objects : List RawObject} {id : ObjectId}

/-- An object that is there is not corrupt. -/
theorem Sound.load_of_contains (h : repo.Sound r objects t)
    (hsize : ∀ object ∈ objects, object.payload.length < Canonical.sizeBound)
    (hthere : repo.database.contains t id = true) :
    ∃ object ∈ objects, repo.database.load t id = .ok object := by
  obtain ⟨stream, hstream⟩ := FileTree.isFile_iff_readFile.mp hthere
  obtain ⟨l, hl, hfile⟩ := FileTree.readFile_eq_ok_iff.mp hstream
  obtain rfl := h.eq_of_locate_objectPath hl
  obtain ⟨object, hmem, hkind, rfl, hcontent⟩ := h.object id _ hfile
  cases hcontent
  obtain ⟨-, hload, -⟩ := Database.load_of_compress hkind (hsize object hmem) hstream
  exact ⟨object, hmem, hload⟩

/-- The names that lead to an object's file are short enough for every file tree. -/
theorem utf8ByteSize_le_of_mem_object (id : ObjectId) :
    ∀ n ∈ [".git", "objects", id.fanOut.1, id.fanOut.2], n.utf8ByteSize ≤ FileTree.nameLimit := by
  obtain ⟨hfan, hfile⟩ := id.utf8ByteSize_fanOut_le
  have hfront : ∀ n ∈ [".git", "objects"], n.utf8ByteSize ≤ FileTree.nameLimit := by decide
  have hback : ∀ n ∈ [id.fanOut.1, id.fanOut.2], n.utf8ByteSize ≤ FileTree.nameLimit := by
    simp [hfan, hfile]
  exact List.forall_mem_append.mpr ⟨hfront, hback⟩

/-- An object that is not there is not found, unless its path is too long for any file. -/
theorem Tidy.load_of_not_contains (h : repo.Tidy r t)
    (habsent : repo.database.contains t id = false) :
    repo.database.load t id =
      if (repo.database.objectPath id).text.utf8ByteSize < FileTree.pathLimit
      then .error (.objectNotFound id)
      else .error (.io (repo.database.objectPath id) .nameTooLong) := by
  have hextends := h.objectPath_extends id
  have hnames := utf8ByteSize_le_of_mem_object id
  split_ifs with hshort
  · -- A file on the way to the object would be that of this very object.
    have hnone : ∀ front content, front <+: [".git", "objects", id.fanOut.1, id.fanOut.2] →
        t.lookup (r ++ front) ≠ some (.file content) := by
      intro front content hfront hlookup
      rw [(h.part front _ hlookup).eq_of_prefix_object hfront] at hlookup
      have hread := (FileTree.readFile_extends_iff h.root hextends).mpr ⟨hshort, hnames, hlookup⟩
      rw [Database.contains, FileTree.isFile_iff_readFile.mpr ⟨content, hread⟩] at habsent
      cases habsent
    have hlookup : t.lookup (r ++ [".git", "objects", id.fanOut.1, id.fanOut.2]) = none := by
      cases hnode : t.lookup (r ++ [".git", "objects", id.fanOut.1, id.fanOut.2]) with
      | none => rfl
      | some node =>
        cases node with
        | file content => exact absurd hnode (hnone _ content List.prefix_rfl)
        | directory => exact absurd (h.part _ _ hnode) (IsPart.not_directory_object id)
    have hread :=
      FileTree.readFile_extends_eq_notFound h.root hextends ⟨hshort, hnames, hnone⟩ hlookup
    unfold Database.load
    rw [Database.objectFile, hread]
  · have hlocate := FileTree.locate_extends h.root hextends
    rw [if_pos (Nat.not_lt.mp hshort)] at hlocate
    have hread := FileTree.readFile_of_nodeAt_error (FileTree.nodeAt_of_locate_error hlocate)
    unfold Database.load
    rw [Database.objectFile, hread]

/-- The store after any run from a fresh root. Every file below the directory of objects is that of
some id: it inflates to the canonical form of an object of a valid kind, and the hash of that form
is the id. Nothing that was staged is left, in the git directory or below that of objects. So an
object loads if the store has it, and otherwise it is not found, unless its path is too long for any
file; it is never corrupt. Payloads have a length below the bound of sizes, as every byte string in
memory has. -/
theorem store_intact (hfresh : repo.IsFresh r t₀) (ops : List Operation)
    (hsize : ∀ object ∈ repo.stored ops t₀, object.payload.length < Canonical.sizeBound)
    (ht : repo.run ops t₀ = t) :
    (∀ names content, t.lookup (r ++ ([".git", "objects"] ++ names)) = some (.file content) →
      ∃ (id : ObjectId) (kind : String) (payload : Bytes), names = [id.fanOut.1, id.fanOut.2] ∧
        Zlib.inflate content = .ok (Canonical.form kind payload) ∧
        Canonical.isKind kind = true ∧
        ObjectId.ofCanonical (Canonical.form kind payload) = id) ∧
    (∀ way name, way = [".git"] ∨ [".git", "objects"] <+: way → IsStagedName name →
      t.lookup (r ++ (way ++ [name])) = none) ∧
    ∀ id,
      (repo.database.contains t id = true → ∃ object, repo.database.load t id = .ok object) ∧
      (repo.database.contains t id = false → repo.database.load t id =
        if (repo.database.objectPath id).text.utf8ByteSize < FileTree.pathLimit
        then .error (.objectNotFound id)
        else .error (.io (repo.database.objectPath id) .nameTooLong)) ∧
      ∀ other damage, repo.database.load t id ≠ .error (.corruptObject other damage) := by
  have hsound := hfresh.sound.run ops
  have htidy := hfresh.tidy.run ops
  rw [List.nil_append] at hsound
  rw [ht] at hsound htidy
  refine ⟨fun names content hlookup => ?_, fun way name hway hstaged => ?_, fun id => ?_⟩
  · obtain ⟨id, rfl⟩ := (htidy.part _ _ hlookup).exists_id
    obtain ⟨object, -, hkind, hid, hcontent⟩ := hsound.object id _ hlookup
    cases hcontent
    exact ⟨id, object.kind, object.payload, rfl, Zlib.inflate_compress _, hkind, hid⟩
  · by_contra hthere
    obtain ⟨node, hnode⟩ := Option.ne_none_iff_exists'.mp hthere
    exact (htidy.part _ _ hnode).not_isStagedName hway hstaged
  · cases hthere : repo.database.contains t id with
    | true =>
      obtain ⟨object, -, hload⟩ := hsound.load_of_contains hsize hthere
      refine ⟨fun _ => ⟨object, hload⟩, nofun, fun other damage => ?_⟩
      rw [hload]
      exact nofun
    | false =>
      have hload := htidy.load_of_not_contains hthere
      refine ⟨nofun, fun _ => hload, fun other damage => ?_⟩
      rw [hload]
      split_ifs <;> exact nofun

/-- A blob, between an operation that fails for a bad kind and a branch with the name of a staged
file, and an object that was never stored. -/
theorem store_intact_blob :
    let repo : Repository := ⟨⟨"/"⟩, {}⟩
    let one : ObjectId := ⟨List.replicate 20 1, rfl⟩
    let ops : List Operation :=
      [⟨0, .storeRaw "a b" [3]⟩, ⟨1, .storeRaw "blob" [1, 2]⟩, ⟨2, .setBranch "tmp-obj-1" one⟩]
    let t := repo.run ops FileTree.empty
    let id := Canonical.idOf "blob" [1, 2]
    repo.IsFresh [] FileTree.empty ∧
      (∀ object ∈ repo.stored ops FileTree.empty, object.payload.length < Canonical.sizeBound) ∧
      repo.database.contains t id = true ∧ (∃ object, repo.database.load t id = .ok object) ∧
      repo.database.contains t one = false ∧
      (repo.database.objectPath one).text.utf8ByteSize < FileTree.pathLimit ∧
      repo.database.load t one = .error (.objectNotFound one) ∧
      t.lookup [".git", "tmp-ref-0"] = none := by
  intro repo one ops t id
  have hfresh : repo.IsFresh [] FileTree.empty := isFresh_empty rfl
  have hstored : repo.stored ops FileTree.empty = [⟨"blob", [1, 2]⟩] := by decide +kernel
  have hsize : ∀ object ∈ repo.stored ops FileTree.empty,
      object.payload.length < Canonical.sizeBound := by
    rw [hstored]
    decide
  obtain ⟨hthere, habsent, hshort⟩ : repo.database.contains t id = true ∧
      repo.database.contains t one = false ∧
      (repo.database.objectPath one).text.utf8ByteSize < FileTree.pathLimit := by decide +kernel
  obtain ⟨-, hstaged, hload⟩ := store_intact hfresh ops hsize (t := t) rfl
  have hname : IsStagedName "tmp-ref-0" := ⟨"tmp-ref", by decide, by decide⟩
  have hmissing := (hload one).2.1 habsent
  rw [if_pos hshort] at hmissing
  exact ⟨hfresh, hsize, hthere, (hload id).1 hthere, habsent, hshort, hmissing,
    hstaged [".git"] "tmp-ref-0" (Or.inl rfl) hname⟩

/-! ## Roots that are too deep -/

/-- Below a root whose path is as long as a path may be, the path of every object is too long. -/
theorem IsAt.pathLimit_le_objectPath (h : repo.IsAt r t)
    (hroot : repo.root.text.utf8ByteSize = 4095) (id : ObjectId) :
    FileTree.pathLimit ≤ (repo.database.objectPath id).text.utf8ByteSize := by
  have hlonger := (h.objectPath_extends id).utf8ByteSize_lt
  rwa [hroot] at hlonger

/-- A root whose path is as long as a path may be is fresh, but the path of an object below it is
too long: the object is not there, and it is not reported as missing. -/
theorem load_of_deep_root :
    let repo : Repository := ⟨⟨String.ofList (List.replicate 4095 '/')⟩, {}⟩
    let id := Canonical.idOf "blob" (Bytes.ofString "hello\n")
    repo.IsFresh [] FileTree.empty ∧
      repo.database.contains (repo.run [] FileTree.empty) id = false ∧
      repo.database.load (repo.run [] FileTree.empty) id ≠ .error (.objectNotFound id) := by
  intro repo id
  have hfresh : repo.IsFresh [] FileTree.empty :=
    isFresh_of_locate (FileTree.locate_slashes (by decide) FileTree.empty) rfl
  have hlong : FileTree.pathLimit ≤ (repo.database.objectPath id).text.utf8ByteSize :=
    hfresh.pathLimit_le_objectPath (utf8ByteSize_slashes 4095) id
  have hlocate := FileTree.locate_extends hfresh.root (hfresh.objectPath_extends id)
  rw [if_pos hlong] at hlocate
  have habsent : repo.database.contains FileTree.empty id = false := by
    rw [Database.contains, FileTree.isFile, FileTree.nodeAt_of_locate_error hlocate]
  have hload := hfresh.tidy.load_of_not_contains habsent
  rw [if_neg (Nat.not_lt.mpr hlong)] at hload
  refine ⟨hfresh, habsent, fun hmissing => ?_⟩
  rw [run_nil, hload] at hmissing
  cases hmissing

end Repository

end ObjectStore
