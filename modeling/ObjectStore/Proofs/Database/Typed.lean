import ObjectStore.Proofs.Commit.Faults
import ObjectStore.Proofs.Database.Persistence

/-!
# Reading objects by type

An object can be read by its own type (`Database.parse`) or by the type that is expected
(`Database.parseTyped`). Once it is loaded and has the expected type, both decode the payload and
report trouble in the same way (`parse_of_loadTyped`, `parseTyped_of_loadTyped`).

A payload that cannot be decoded makes the object corrupt, with one exception: a commit that a bad
signature spoils is reported as an invalid signature, without the id of the object. See
`Database.parse_undecodable`.
-/

namespace ObjectStore

/-- What comes of decoding a payload: it is malformed if it cannot be decoded, unless it is a commit
and spoilt by a signature. -/
theorem StoredObject.decode_cases (type : ObjectType) (payload : Bytes) :
    (∃ object, StoredObject.decode type payload = .ok object) ∨
      (∃ fault, (type = .commit ∧ Commit.IsSpoilt payload fault) ∧
        StoredObject.decode type payload = .error (.invalidSignature fault)) ∨
      ∃ fault, StoredObject.decode type payload = .error (.malformed fault) := by
  cases type with
  | blob => exact Or.inl ⟨.blob payload, rfl⟩
  | tree =>
    unfold StoredObject.decode Tree.decode
    cases Tree.decodeRecords payload.length payload with
    | ok entries => exact Or.inl ⟨.tree ⟨entries⟩, rfl⟩
    | error fault => exact Or.inr (Or.inr ⟨.tree fault, rfl⟩)
  | commit =>
    have hcommit : StoredObject.decode .commit payload = (Commit.decode payload).map .commit := rfl
    rw [hcommit]
    rcases Commit.decode_cases payload with ⟨commit, h⟩ | ⟨fault, hspoilt, h⟩ | ⟨fault, h⟩
    · rw [h]
      exact Or.inl ⟨.commit commit, rfl⟩
    · rw [h]
      exact Or.inr (Or.inl ⟨fault, ⟨rfl, hspoilt⟩, rfl⟩)
    · rw [h]
      exact Or.inr (Or.inr ⟨.commit fault, rfl⟩)

namespace Database

variable {db : Database} {t : FileTree} {id : ObjectId} {type : ObjectType} {payload : Bytes}

/-- Read an object that should have the given type, with the reader of that type. -/
def parseTyped (db : Database) (t : FileTree) (id : ObjectId) :
    ObjectType → Except StoreError StoredObject
  | .blob => (db.parseBlob t id).map .blob
  | .tree => (db.parseTree t id).map .tree
  | .commit => (db.parseCommit t id).map .commit

/-- An object of a known type loads with that type. -/
theorem loadTyped_of_load {object : RawObject} (hload : db.load t id = .ok object)
    (htype : object.objectType = .ok type) : db.loadTyped t id = .ok (type, object.payload) := by
  rw [loadTyped, hload, ok_bind, htype]
  rfl

/-- An object is parsed by decoding its payload, and blamed if that cannot be done. -/
theorem parse_of_loadTyped (h : db.loadTyped t id = .ok (type, payload)) :
    db.parse t id = (StoredObject.decode type payload).mapError (.blame id) := by
  rw [parse, h]
  rfl

/-- The reader of one type parses an object of that type by decoding its payload, too. -/
theorem parseAs_of_loadTyped {α : Type} (decode : Bytes → Except StoreError α)
    (h : db.loadTyped t id = .ok (type, payload)) :
    parseAs type decode db t id = (decode payload).mapError (.blame id) := by
  rw [parseAs, h, ok_bind]
  exact if_pos rfl

/-- The reader of an object's own type decodes it as the reader of all types does. -/
theorem parseTyped_of_loadTyped (h : db.loadTyped t id = .ok (type, payload)) :
    db.parseTyped t id type = (StoredObject.decode type payload).mapError (.blame id) := by
  have map_mapError {α β : Type} (x : Except StoreError α) (f : α → β) :
      (x.mapError (StoreError.blame id)).map f = (x.map f).mapError (StoreError.blame id) := by
    cases x <;> rfl
  cases type with
  | blob => rw [parseTyped, parseBlob, parseAs_of_loadTyped _ h, map_mapError]; rfl
  | tree => rw [parseTyped, parseTree, parseAs_of_loadTyped _ h, map_mapError]; rfl
  | commit => rw [parseTyped, parseCommit, parseAs_of_loadTyped _ h, map_mapError]; rfl

/-- In every tree, an object that loads but cannot be decoded as the type it has is reported in the
same way by the reader of all types and the reader of that type: as corrupt, and with its id, except
that a commit whose first bad line is for a signature is reported as an invalid signature. -/
theorem parse_undecodable {object : RawObject} (hload : db.load t id = .ok object)
    (htype : object.objectType = .ok type)
    (hbad : ∀ decoded, StoredObject.decode type object.payload ≠ .ok decoded) :
    ∃ err, db.parse t id = .error err ∧ db.parseTyped t id type = .error err ∧
      ((∃ damage, err = .corruptObject id damage) ↔
        ¬ (type = .commit ∧ ∃ fault, Commit.IsSpoilt object.payload fault)) ∧
      (err.isCorruption = true ↔
        ¬ (type = .commit ∧ ∃ fault, Commit.IsSpoilt object.payload fault)) ∧
      ∀ fault, type = .commit → Commit.IsSpoilt object.payload fault →
        err = .invalidSignature fault := by
  have hloaded := loadTyped_of_load hload htype
  rw [parse_of_loadTyped hloaded, parseTyped_of_loadTyped hloaded]
  -- a payload that a signature spoils is decoded to that signature's fault and to nothing else
  have hspoilt : ∀ fault, type = .commit → Commit.IsSpoilt object.payload fault →
      StoredObject.decode type object.payload = .error (.invalidSignature fault) := by
    rintro fault rfl h
    rw [StoredObject.decode, Commit.decode_of_isSpoilt h]
    rfl
  rcases StoredObject.decode_cases type object.payload with
    ⟨decoded, hok⟩ | ⟨fault, ⟨hcommit, hfault⟩, herror⟩ | ⟨fault, herror⟩
  · exact absurd hok (hbad decoded)
  · have hsome : ¬ ¬ (type = .commit ∧ ∃ fault, Commit.IsSpoilt object.payload fault) :=
      not_not_intro ⟨hcommit, fault, hfault⟩
    rw [herror]
    refine ⟨.invalidSignature fault, rfl, rfl, iff_of_false ?_ hsome, iff_of_false ?_ hsome, ?_⟩
    · rintro ⟨damage, h⟩
      cases h
    · exact Bool.false_ne_true
    · intro fault' _ h
      have hsame := (hspoilt fault' hcommit h).symm.trans herror
      cases hsame
      rfl
  · have hnone : ¬ (type = .commit ∧ ∃ fault, Commit.IsSpoilt object.payload fault) := by
      rintro ⟨hcommit, fault', h⟩
      rw [hspoilt fault' hcommit h] at herror
      cases herror
    rw [herror]
    refine ⟨.corruptObject id (.payload fault), rfl, rfl, iff_of_true ⟨_, rfl⟩ hnone,
      iff_of_true rfl hnone, ?_⟩
    intro fault' hcommit h
    exact absurd ⟨hcommit, fault', h⟩ hnone

/-- A commit with a bad signature below a bad id is corrupt. -/
theorem parse_undecodable_bad_tree :
    let db : Database := ⟨⟨"/objects"⟩⟩
    let payload := Bytes.ofString "tree x\nauthor nobody\n\n"
    let id := Canonical.idOf "commit" payload
    let t := (db.storeRaw 7 "commit" payload FileTree.empty).2
    db.load t id = .ok ⟨"commit", payload⟩ ∧
      (∀ commit, StoredObject.decode .commit payload ≠ .ok commit) ∧
      ∃ damage, db.parse t id = .error (.corruptObject id damage) ∧
        db.parseTyped t id .commit = .error (.corruptObject id damage) := by
  intro db payload id t
  have hfile : db.objectFile t id = .ok (Zlib.compress (Canonical.form "commit" payload)) := by
    decide +kernel
  have hload : db.load t id = .ok ⟨"commit", payload⟩ :=
    (load_of_compress (by decide) (by decide) hfile).2.1
  have hdecode : Commit.decode payload = .error (.malformed (.commit (.badId (.notHex "x")))) := by
    decide +kernel
  have hbad : ∀ commit, StoredObject.decode .commit payload ≠ .ok commit := by
    intro commit
    rw [StoredObject.decode, hdecode]
    exact nofun
  have hclean : ¬ ∃ fault, Commit.IsSpoilt payload fault := by
    rintro ⟨fault, hspoilt⟩
    rw [Commit.decode_of_isSpoilt hspoilt] at hdecode
    cases hdecode
  obtain ⟨err, hparse, htyped, hcorrupt, -⟩ := parse_undecodable hload rfl hbad
  obtain ⟨damage, rfl⟩ := hcorrupt.mpr fun h => hclean h.2
  exact ⟨hload, hbad, damage, hparse, htyped⟩

/-- A commit with an author who has no email is stored, loads and cannot be decoded, but it is not
reported as corrupt. -/
theorem parse_ne_corruptObject :
    let db : Database := ⟨⟨"/objects"⟩⟩
    let payload := Bytes.ofString "author nobody\n\n"
    let id := Canonical.idOf "commit" payload
    let t := (db.storeRaw 7 "commit" payload FileTree.empty).2
    db.load t id = .ok ⟨"commit", payload⟩ ∧
      (∀ commit, Commit.decode payload ≠ .ok commit) ∧
      db.parse t id = .error (.invalidSignature (.missingOpen "nobody")) ∧
      db.parseCommit t id = .error (.invalidSignature (.missingOpen "nobody")) ∧
      (StoreError.invalidSignature (.missingOpen "nobody")).isCorruption = false := by
  intro db payload id t
  have hfile : db.objectFile t id = .ok (Zlib.compress (Canonical.form "commit" payload)) := by
    decide +kernel
  have hload : db.load t id = .ok ⟨"commit", payload⟩ :=
    (load_of_compress (by decide) (by decide) hfile).2.1
  have hdecode : Commit.decode payload = .error (.invalidSignature (.missingOpen "nobody")) := by
    decide +kernel
  have hloaded : db.loadTyped t id = .ok (.commit, payload) := loadTyped_of_load hload rfl
  refine ⟨hload, fun commit => ?_, ?_, ?_, rfl⟩
  · rw [hdecode]
    exact nofun
  · rw [parse_of_loadTyped hloaded, StoredObject.decode, hdecode]
    rfl
  · rw [parseCommit, parseAs_of_loadTyped _ hloaded, hdecode]
    rfl

end Database

end ObjectStore
