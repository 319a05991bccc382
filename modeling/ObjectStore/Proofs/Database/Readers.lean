import Mathlib.Logic.Function.Basic
import ObjectStore.Proofs.Database.Typed

/-!
# The readers agree

An object can be asked for its type, read whatever its type is, and read as a blob, a tree or a
commit. All five readers load it first and look at its kind before they decode anything, so they
differ only where they should.

* `Database.AllReport`: all readers fail with the same error. They do if the object does not load
  (`allReport_of_load_error`) and if its kind is not known (`allReport_of_load`).
* `Database.Answers`: what the reader for an expected type says of an object that has a type. If
  that is the expected one, it says what the reader of all types says, decoded or not, and
  otherwise which types there are. `answers_parseAs` is the one proof for all three.
* `Database.readers_agree`: one of these is the case for every id in every tree.
-/

namespace ObjectStore.Database

variable {db : Database} {t : FileTree} {id : ObjectId} {type expected : ObjectType}
variable {payload : Bytes} {err : StoreError} {object : RawObject}

/-! ## Errors that all readers report -/

/-- Whichever way the object is read, the error is the same. -/
structure AllReport (db : Database) (t : FileTree) (id : ObjectId) (err : StoreError) : Prop where
  typeOf : db.typeOf t id = .error err
  parse : db.parse t id = .error err
  parseBlob : db.parseBlob t id = .error err
  parseTree : db.parseTree t id = .error err
  parseCommit : db.parseCommit t id = .error err

/-- Nothing is decoded unless the object loads and has a known type. -/
theorem allReport_of_loadTyped (h : db.loadTyped t id = .error err) : db.AllReport t id err where
  typeOf := by
    unfold Database.typeOf
    rw [h]
    rfl
  parse := bind_of_eq_error h
  parseBlob := bind_of_eq_error h
  parseTree := bind_of_eq_error h
  parseCommit := bind_of_eq_error h

/-- Readers report what loading reports. -/
theorem allReport_of_load_error (h : db.load t id = .error err) : db.AllReport t id err := by
  apply allReport_of_loadTyped
  exact bind_of_eq_error h

/-- A kind that is none of the known ones is reported as it is. -/
theorem allReport_of_load (hload : db.load t id = .ok object)
    (hkind : ∀ type : ObjectType, object.kind ≠ type.kind) :
    db.AllReport t id (.unknownObjectType object.kind) := by
  have hnone : ObjectType.ofKind? object.kind = none := by
    by_contra hsome
    obtain ⟨type, htype⟩ := Option.ne_none_iff_exists'.mp hsome
    exact hkind type (ObjectType.ofKind?_eq_some_iff.mp htype)
  have hunknown : object.objectType = .error (.unknownObjectType object.kind) := by
    unfold RawObject.objectType
    rw [hnone]
  apply allReport_of_loadTyped
  rw [loadTyped, hload, ok_bind]
  exact bind_of_eq_error hunknown

/-! ## Objects of a known type -/

/-- What a reader for the expected type says of an object of the given type. It agrees with the
reader of all types if the types are the same, on the object as on the reason why there is none. -/
structure Answers {α : Type} (read : Except StoreError α) (box : α → StoredObject)
    (expected : ObjectType) (db : Database) (t : FileTree) (id : ObjectId) (type : ObjectType) :
    Prop where
  value_iff : expected = type → ∀ value, read = .ok value ↔ db.parse t id = .ok (box value)
  error_iff : expected = type → ∀ err, read = .error err ↔ db.parse t id = .error err
  mismatch : expected ≠ type → read = .error (.unexpectedObjectType id expected type)

/-- The type of an object is the one it was loaded with. -/
theorem typeOf_of_loadTyped (h : db.loadTyped t id = .ok (type, payload)) :
    db.typeOf t id = .ok type := by
  unfold Database.typeOf
  rw [h]
  rfl

/-- A reader answers so if it decodes payloads as the reader of all types does. The types are
compared before that, so it makes no difference whether the payload can be decoded. -/
theorem answers_parseAs {α : Type} {decode : Bytes → Except StoreError α} {box : α → StoredObject}
    (hbox : Function.Injective box)
    (hdecode : ∀ payload, StoredObject.decode expected payload = (decode payload).map box)
    (h : db.loadTyped t id = .ok (type, payload)) :
    Answers (parseAs expected decode db t id) box expected db t id type where
  value_iff := by
    rintro rfl value
    rw [parseAs_of_loadTyped decode h, parse_of_loadTyped h, hdecode]
    cases decode payload with
    | ok decoded => simp [Except.map, hbox.eq_iff]
    | error err => simp [Except.map]
  error_iff := by
    rintro rfl err
    rw [parseAs_of_loadTyped decode h, parse_of_loadTyped h, hdecode]
    cases decode payload with
    | ok decoded => simp [Except.map]
    | error err => simp [Except.map]
  mismatch hne := by
    rw [parseAs, h, ok_bind]
    exact if_neg fun heq => hne heq.symm

/-- In every tree and for every id the readers agree. An object that does not load, or whose kind is
not known, they all report with the same error. An object of a known type has that type for whoever
asks for it, whether or not it can be decoded; the reader for that type says what the reader of all
types says, and the readers for the other types refuse it. -/
theorem readers_agree (db : Database) (t : FileTree) (id : ObjectId) :
    (∀ err, db.load t id = .error err → db.AllReport t id err) ∧
      (∀ object, db.load t id = .ok object → (∀ type : ObjectType, object.kind ≠ type.kind) →
        db.AllReport t id (.unknownObjectType object.kind)) ∧
      ∀ object type, db.load t id = .ok object → object.kind = type.kind →
        db.typeOf t id = .ok type ∧
          Answers (db.parseBlob t id) .blob .blob db t id type ∧
          Answers (db.parseTree t id) .tree .tree db t id type ∧
          Answers (db.parseCommit t id) .commit .commit db t id type := by
  refine ⟨fun err => allReport_of_load_error, fun object => allReport_of_load, ?_⟩
  intro object type hload hkind
  have htype : object.objectType = .ok type := by
    unfold RawObject.objectType
    rw [hkind, ObjectType.ofKind?_kind]
  have hloaded := loadTyped_of_load hload htype
  refine ⟨typeOf_of_loadTyped hloaded, ?_, ?_, ?_⟩
  · exact answers_parseAs (fun _ _ => StoredObject.blob.inj) (fun _ => rfl) hloaded
  · exact answers_parseAs (fun _ _ => StoredObject.tree.inj) (fun _ => rfl) hloaded
  · exact answers_parseAs (fun _ _ => StoredObject.commit.inj) (fun _ => rfl) hloaded

/-- A commit without a tree, and an object of a kind that is not known. -/
theorem readers_agree_undecodable :
    let db : Database := ⟨⟨"/objects"⟩⟩
    let payload := Bytes.ofString "parent x\n\n"
    let commit := Canonical.idOf "commit" payload
    let tag := Canonical.idOf "tag" payload
    let t := (db.storeRaw 2 "tag" payload (db.storeRaw 1 "commit" payload FileTree.empty).2).2
    (db.load t commit = .ok ⟨"commit", payload⟩ ∧ db.typeOf t commit = .ok .commit ∧
      db.parseTree t commit = .error (.unexpectedObjectType commit .tree .commit) ∧
      ∃ err, db.parse t commit = .error err ∧ db.parseCommit t commit = .error err) ∧
    db.load t tag = .ok ⟨"tag", payload⟩ ∧ db.AllReport t tag (.unknownObjectType "tag") := by
  intro db payload commit tag t
  obtain ⟨hcommit, htag⟩ :
      db.objectFile t commit = .ok (Zlib.compress (Canonical.form "commit" payload)) ∧
      db.objectFile t tag = .ok (Zlib.compress (Canonical.form "tag" payload)) := by decide +kernel
  have hloadCommit : db.load t commit = .ok ⟨"commit", payload⟩ :=
    (load_of_compress (by decide) (by decide) hcommit).2.1
  have hloadTag : db.load t tag = .ok ⟨"tag", payload⟩ :=
    (load_of_compress (by decide) (by decide) htag).2.1
  have hdecode : Commit.decode payload = .error (.malformed (.commit (.badId (.notHex "x")))) := by
    decide +kernel
  obtain ⟨htype, -, htree, hanswers⟩ := (readers_agree db t commit).2.2 _ .commit hloadCommit rfl
  have hunknown := (readers_agree db t tag).2.1 _ hloadTag fun type => by cases type <;> decide
  have hparse : db.parse t commit
      = .error (.corruptObject commit (.payload (.commit (.badId (.notHex "x"))))) := by
    rw [parse_of_loadTyped (loadTyped_of_load hloadCommit rfl), StoredObject.decode, hdecode]
    rfl
  exact ⟨⟨hloadCommit, htype, htree.mismatch (by decide), _, hparse,
    (hanswers.error_iff rfl _).mpr hparse⟩, hloadTag, hunknown⟩

end ObjectStore.Database
