import ObjectStore.Proofs.Database.Persistence

/-!
# The ids that operations return

Operations of the library return the id of what they store, and commands print it. `Operation.Returns`
says of both that the id is given out.

* `Action.returns_iff`: an operation gives out an id exactly if it stores an object under it.
* `Repository.exists_returns_iff`: so the ids that a run gives out are those of the objects that it
  stores.
-/

namespace ObjectStore

variable {repo : Repository} {t : FileTree} {id : ObjectId}

namespace Command

/-- The line that prints an id says which it is. -/
theorem eq_of_outputLine_eq {a b : ObjectId} (h : outputLine a.text = outputLine b.text) :
    a = b := by
  have hline := congrArg String.toList (Bytes.ofString_injective h)
  rw [String.toList_append, String.toList_append] at hline
  have htext : a.text = b.text := String.toList_inj.mp (List.append_cancel_right hline)
  exact ObjectId.hex_injective (String.ofList_inj.mp htext)

/-- A command ends well with an output exactly if its change gives that output. -/
theorem ofChange_fst_eq_iff {change : Change CommandError Bytes} {output : Bytes} :
    (ofChange change t).1 = ⟨output, none⟩ ↔ (change t).1 = .ok output := by
  unfold ofChange
  split
  · rename_i written t' heq
    rw [heq]
    simp
  · rename_i err t' heq
    rw [heq]
    simp

/-- A command that stores what it was given prints the id that it was stored under. -/
theorem ofChange_store_iff {α : Type} (t : FileTree) (id : ObjectId)
    (given : FileTree → Except CommandError α) (store : α → Change StoreError ObjectId) :
    (ofChange (Change.look given >>= fun a => (store a).mapError .store >>= fun id =>
        pure (outputLine id.text)) t).1 = ⟨outputLine id.text, none⟩ ↔
      ∃ a, given t = .ok a ∧ (store a t).1 = .ok id := by
  rw [ofChange_fst_eq_iff, Change.look_bind_fst_eq_ok_iff]
  refine exists_congr fun a => and_congr_right fun _ => ?_
  rw [Change.bind_pure_fst_eq_ok_iff]
  constructor
  · rintro ⟨stored, hstored, hline⟩
    rwa [← eq_of_outputLine_eq hline, ← mapError_eq_ok_iff]
  · intro hstored
    exact ⟨id, mapError_eq_ok_iff.mpr hstored, rfl⟩

end Command

/-! ## What operations return -/

/-- The action succeeds in the given tree, and the given id is what it returns or prints as that of
an object that it stored. -/
def Action.Returns (repo : Repository) (draw : UInt32) (t : FileTree) (id : ObjectId) :
    Action → Prop
  | writeBlob content => (repo.writeBlob draw content t).1 = .ok id
  | storeRaw kind payload => (repo.database.storeRaw draw kind payload t).1 = .ok id
  | buildTree entries => (repo.buildTree draw entries t).1 = .ok id
  | buildCommit commit => (repo.buildCommit draw commit t).1 = .ok id
  | hashObject current file kind write => write = true ∧
    (Command.hashObject repo draw current file kind write t).1 = ⟨Command.outputLine id.text, none⟩
  | makeTree listing =>
    (Command.makeTree repo draw listing t).1 = ⟨Command.outputLine id.text, none⟩
  | commitTree env tree parents message =>
    (Command.commitTree repo draw env tree parents message t).1 = ⟨Command.outputLine id.text, none⟩
  | create | setBranch _ _ | createCommand | updateRef _ _ | revParse _ | catFile _ _
  | listBranches _ | log _ _ _ _ => False

/-- The operation succeeds in the given tree and gives out the given id. -/
def Operation.Returns (repo : Repository) (t : FileTree) (id : ObjectId) (op : Operation) : Prop :=
  op.action.Returns repo op.draw t id

/-- Nothing is stored for an error. -/
theorem Effect.not_exists_ofResult_error {ε : Type} {err : ε} {P : RawObject → Prop} :
    ¬ ∃ object, ofResult (.error err) = store object ∧ P object := by
  rintro ⟨object, hobject, -⟩
  cases hobject

/-- An action gives out an id exactly if it stores an object under it. -/
theorem Action.returns_iff (repo : Repository) (draw : UInt32) (t : FileTree) (id : ObjectId)
    (action : Action) :
    action.Returns repo draw t id ↔ ∃ object, action.effect repo t = .store object ∧
      (repo.database.storeRaw draw object.kind object.payload t).1 = .ok id := by
  -- an operation that comes to storing one object
  have hstore : ∀ object : RawObject, (repo.database.storeRaw draw object.kind object.payload t).1
      = .ok id ↔ ∃ other, Effect.store object = .store other ∧
        (repo.database.storeRaw draw other.kind other.payload t).1 = .ok id := by
    intro object
    simp
  have hbuild : ∀ entries, (repo.buildTree draw entries t).1 = .ok id ↔
      ∃ tree, Tree.build entries = .ok tree ∧
        (repo.database.storeRaw draw ObjectType.tree.kind tree.encode t).1 = .ok id :=
    fun entries => Change.look_bind_fst_eq_ok_iff
  have hcommit : ∀ commit, (repo.buildCommit draw commit t).1 = .ok id ↔
      ∃ object, Effect.ofObject (.commit commit) = .store object ∧
        (repo.database.storeRaw draw object.kind object.payload t).1 = .ok id :=
    fun commit => hstore ⟨ObjectType.commit.kind, commit.encode⟩
  cases action with
  | writeBlob content => exact hstore ⟨ObjectType.blob.kind, content⟩
  | storeRaw kind payload => exact hstore ⟨kind, payload⟩
  | buildCommit commit => exact hcommit commit
  | buildTree entries =>
    rw [Returns, hbuild, effect]
    cases Tree.build entries with
    | error err => exact iff_of_false (by simp) Effect.not_exists_ofResult_error
    | ok tree =>
      simp only [Except.ok.injEq, exists_eq_left']
      exact hstore ⟨ObjectType.tree.kind, tree.encode⟩
  | hashObject current file kind write =>
    rw [Returns, effect]
    cases write with
    | false => simp
    | true =>
      have hprinted := Command.ofChange_store_iff t id
        (fun t => (t.readFileFrom current file).mapError (.unreadable file))
        (fun payload => repo.database.storeRaw draw kind payload)
      rw [Command.hashObject]
      simp only [if_true, true_and]
      rw [hprinted]
      cases t.readFileFrom current file with
      | error fault => exact iff_of_false (by simp) Effect.not_exists_ofResult_error
      | ok payload =>
        simp only [mapError_ok, Except.ok.injEq, exists_eq_left']
        exact hstore ⟨kind, payload⟩
  | makeTree listing =>
    have hprinted := Command.ofChange_store_iff t id
      (fun _ => Tree.entriesOfListing listing) (repo.buildTree draw)
    rw [Returns, Command.makeTree, hprinted, effect]
    cases Tree.entriesOfListing listing with
    | error err => exact iff_of_false (by simp) Effect.not_exists_ofResult_error
    | ok entries =>
      simp only [Except.ok.injEq, exists_eq_left', hbuild, ok_bind]
      cases Tree.build entries with
      | error err => exact iff_of_false (by simp) Effect.not_exists_ofResult_error
      | ok tree =>
        simp only [Except.ok.injEq, exists_eq_left']
        exact hstore ⟨ObjectType.tree.kind, tree.encode⟩
  | commitTree env tree parents message =>
    have hprinted := Command.ofChange_store_iff t id (fun t => do
      let tree ← repo.resolve t tree
      let parents ← parents.mapM (repo.resolve t)
      let author ← env.signature .author
      let committer ← env.committer
      return (⟨tree, parents, author, committer, message⟩ : Commit)) (repo.buildCommit draw)
    rw [Returns, Command.commitTree, hprinted, effect]
    cases repo.resolve t tree with
    | error err => exact iff_of_false (by simp) Effect.not_exists_ofResult_error
    | ok tree =>
      simp only [ok_bind]
      cases parents.mapM (repo.resolve t) with
      | error err => exact iff_of_false (by simp) Effect.not_exists_ofResult_error
      | ok parents =>
        simp only [ok_bind]
        cases env.signature .author with
        | error err => exact iff_of_false (by simp) Effect.not_exists_ofResult_error
        | ok author =>
          simp only [ok_bind]
          cases env.committer with
          | error err => exact iff_of_false (by simp) Effect.not_exists_ofResult_error
          | ok committer =>
            simp only [ok_bind, pure, Except.pure, Except.ok.injEq, exists_eq_left']
            exact hcommit ⟨tree, parents, author, committer, message⟩
  | setBranch name target =>
    refine iff_of_false False.elim ?_
    rw [effect]
    cases BranchName.parse name with
    | error err => exact Effect.not_exists_ofResult_error
    | ok branch => rintro ⟨object, ⟨⟩, -⟩
  | updateRef name revision =>
    refine iff_of_false False.elim ?_
    rw [effect]
    cases repo.resolve t revision with
    | error err => exact Effect.not_exists_ofResult_error
    | ok target =>
      cases BranchName.parse (Revision.withoutFront name) with
      | error err => exact Effect.not_exists_ofResult_error
      | ok branch => rintro ⟨object, ⟨⟩, -⟩
  | create => simp [Returns, effect]
  | createCommand => simp [Returns, effect]
  | revParse revision => simp [Returns, effect]
  | catFile revision aspect => simp [Returns, effect]
  | listBranches coloured => simp [Returns, effect]
  | log revision oneline mainline coloured => simp [Returns, effect]

/-- In terms of what it stores. -/
theorem Operation.returns_iff_stored (op : Operation) : op.Returns repo t id ↔
    ∃ object ∈ (op.action.effect repo t).stored repo op.draw t,
      Canonical.idOf object.kind object.payload = id := by
  rw [Returns, Action.returns_iff]
  refine exists_congr fun object => ?_
  rw [Effect.mem_stored_iff, and_assoc]
  refine and_congr_right fun _ => ?_
  constructor
  · intro hok
    exact ⟨by rw [hok]; rfl, (repo.database.eq_idOf_of_storeRaw hok).symm⟩
  · rintro ⟨hok, rfl⟩
    cases hresult : (repo.database.storeRaw op.draw object.kind object.payload t).1 with
    | error err =>
      rw [hresult] at hok
      cases hok
    | ok id => rw [repo.database.eq_idOf_of_storeRaw hresult]

/-- The ids that a run gives out are those of the objects that it stores. -/
theorem Repository.exists_returns_iff {ops : List Operation} :
    (∃ before op after, ops = before ++ op :: after ∧ op.Returns repo (repo.run before t) id) ↔
      ∃ object ∈ repo.stored ops t, Canonical.idOf object.kind object.payload = id := by
  simp only [Operation.returns_iff_stored]
  constructor
  · rintro ⟨before, op, after, rfl, object, hmem, hid⟩
    refine ⟨object, ?_, hid⟩
    rw [stored_append, stored]
    exact List.mem_append_right _ (List.mem_append_left _ hmem)
  · rintro ⟨object, hmem, hid⟩
    obtain ⟨before, op, after, hsplit, hstored⟩ := exists_of_mem_stored hmem
    exact ⟨before, op, after, hsplit, object, hstored, hid⟩

end ObjectStore
