import ObjectStore.Proofs.Database.Typed
import ObjectStore.Proofs.Returned
import ObjectStore.Proofs.Revision.Lookup
import ObjectStore.Proofs.Tree.Listing
import ObjectStore.Proofs.Tree.RoundTrip

/-!
# Listings from one command to another

What `catFile` prints of a tree, `makeTree` takes. `Command.makeTree_catFile` says what comes of it
after any run of a repository: the same tree, and nothing new in the store, exactly if a listing
keeps the names of the tree. For that the id has to mean the tree, which it does as long as no
branch has it for a name (`Repository.resolve_text`).

`Command.makeTree_catFile_ne` is the other case: a name that ends in a carriage return.
-/

namespace ObjectStore

namespace Repository

variable {repo : Repository} {t : FileTree} {id : ObjectId} {entries : List TreeEntry} {tree : Tree}
variable {draw : UInt32}

/-! ## Trees that are built -/

/-- Entries that make a tree are stored as that tree. -/
theorem buildTree_of_build (h : Tree.build entries = .ok tree) :
    repo.buildTree draw entries t
      = repo.database.storeRaw draw ObjectType.tree.kind tree.encode t :=
  Change.look_bind_of_ok h

/-- An id that building a tree gave is that of the tree its entries make. -/
theorem exists_of_buildTree (h : (repo.buildTree draw entries t).1 = .ok id) :
    ∃ tree, Tree.build entries = .ok tree ∧
      (repo.database.storeRaw draw ObjectType.tree.kind tree.encode t).1 = .ok id :=
  Change.look_bind_fst_eq_ok_iff.mp h

end Repository

/-- The write that building a tree comes to. -/
theorem Action.effect_buildTree {repo : Repository} {t : FileTree} {entries : List TreeEntry}
    {tree : Tree} (h : Tree.build entries = .ok tree) :
    (buildTree entries).effect repo t = .ofObject (.tree tree) := by
  rw [effect, h]
  rfl

/-- The write that making a tree from a listing comes to. -/
theorem Action.effect_makeTree {repo : Repository} {t : FileTree} {listing : Bytes}
    {entries : List TreeEntry} {tree : Tree} (hread : Tree.entriesOfListing listing = .ok entries)
    (h : Tree.build entries = .ok tree) :
    (makeTree listing).effect repo t = .ofObject (.tree tree) := by
  rw [effect, hread, ok_bind, h]
  rfl

/-- A tree that a run builds is one of the objects that it stores. -/
theorem Repository.mem_stored_of_buildTree {repo : Repository} {t : FileTree} {id : ObjectId}
    {entries : List TreeEntry} {tree : Tree} {draw : UInt32} {before : List Operation}
    (htree : Tree.build entries = .ok tree)
    (hok : (repo.buildTree draw entries (repo.run before t)).1 = .ok id) (after : List Operation) :
    id = Canonical.idOf ObjectType.tree.kind tree.encode ∧
      (⟨ObjectType.tree.kind, tree.encode⟩ : RawObject) ∈
        repo.stored (before ++ ⟨draw, .buildTree entries⟩ :: after) t := by
  rw [buildTree_of_build htree] at hok
  refine ⟨repo.database.eq_idOf_of_storeRaw hok, ?_⟩
  rw [stored_append, stored]
  refine List.mem_append_right _ (List.mem_append_left _ ?_)
  rw [Action.effect_buildTree htree, Effect.mem_stored_iff, hok]
  exact ⟨rfl, rfl⟩

/-- A tree that was built reads back as it was written. -/
theorem Tree.decode_encode_of_build {entries : List TreeEntry} {tree : Tree}
    (hmodes : ∀ entry ∈ entries, entry.mode.IsGiven) (h : build entries = .ok tree) :
    decode tree.encode = .ok tree := by
  obtain ⟨haccepts, hentries⟩ := build_eq_ok_iff.mp h
  have hperm : tree.entries.Perm entries := hentries ▸ List.mergeSort_perm entries _
  obtain ⟨records, hrecords⟩ := exists_records fun entry hentry =>
    ⟨hmodes entry (hperm.mem_iff.mp hentry),
      (haccepts.isName entry (hperm.mem_iff.mp hentry)).2.2.1⟩
  exact decode_encode_of_records hrecords

/-- A payload that loads and decodes is parsed as that tree. -/
theorem Database.parse_tree_of_load {db : Database} {t : FileTree} {id : ObjectId} {tree : Tree}
    (hload : db.load t id = .ok ⟨ObjectType.tree.kind, tree.encode⟩)
    (hdecode : Tree.decode tree.encode = .ok tree) : db.parse t id = .ok (.tree tree) := by
  have hloaded : db.loadTyped t id = .ok (.tree, tree.encode) := loadTyped_of_load hload rfl
  rw [parse_of_loadTyped hloaded, StoredObject.decode, hdecode]
  rfl

/-! ## From one command to the other -/

namespace Command

variable {repo : Repository} {r : Location} {t t₀ : FileTree} {id : ObjectId}
  {entries : List TreeEntry} {tree : Tree} {draw draw' : UInt32}

/-- An object that is parsed is shown, and nothing is changed. -/
theorem catFile_of_parse {revision : String} {object : StoredObject}
    (hresolve : repo.resolve t revision = .ok id) (hparse : repo.database.parse t id = .ok object) :
    catFile repo revision .content t = (⟨shown object, none⟩, t) := by
  rw [catFile, ofResult, ofChange, Change.look_apply, hresolve]
  simp only [ok_bind, hparse, mapError_ok]
  rfl

/-- A listing whose entries make a tree gives the id of that tree. -/
theorem makeTree_of_read {listing : Bytes} {t' : FileTree}
    (hread : Tree.entriesOfListing listing = .ok entries)
    (hbuild : repo.buildTree draw entries t = (.ok id, t')) :
    makeTree repo draw listing t = (⟨outputLine id.text, none⟩, t') := by
  rw [makeTree, ofChange, Change.look_bind_of_ok hread,
    Change.bind_of_ok (Change.mapError_of_ok hbuild)]
  rfl

/-- What was printed was read and built. -/
theorem exists_of_makeTree {listing : Bytes} {output : Bytes} {t' : FileTree}
    (h : makeTree repo draw listing t = (⟨output, none⟩, t')) : ∃ read id,
      Tree.entriesOfListing listing = .ok read ∧ (repo.buildTree draw read t).1 = .ok id ∧
      output = outputLine id.text := by
  have hprinted := congrArg Prod.fst h
  rw [makeTree, ofChange_fst_eq_iff, Change.look_bind_fst_eq_ok_iff] at hprinted
  obtain ⟨read, hread, hprinted⟩ := hprinted
  obtain ⟨id, hbuild, rfl⟩ := Change.bind_pure_fst_eq_ok_iff.mp hprinted
  exact ⟨read, id, hread, mapError_eq_ok_iff.mp hbuild, rfl⟩

/-- The id of a tree is printed only if that tree is made, as long as the hash tells it from the one
that is made. -/
theorem build_of_makeTree {listing : Bytes} {t' : FileTree}
    (hdecode : Tree.decode tree.encode = .ok tree)
    (hapart : ∀ object ∈ repo.stored [⟨draw, .makeTree listing⟩] t,
      ¬ Sha1.Collision (Canonical.form object.kind object.payload)
        (Canonical.form ObjectType.tree.kind tree.encode))
    (hmake : makeTree repo draw listing t
      = (⟨outputLine (Canonical.idOf ObjectType.tree.kind tree.encode).text, none⟩, t')) :
    ∃ read, Tree.entriesOfListing listing = .ok read ∧ Tree.build read = .ok tree := by
  obtain ⟨read, id, hread, hbuild, houtput⟩ := exists_of_makeTree hmake
  obtain ⟨made, hmade, hstored⟩ := Repository.exists_of_buildTree hbuild
  have hid : Canonical.idOf ObjectType.tree.kind made.encode
      = Canonical.idOf ObjectType.tree.kind tree.encode := by
    rw [← repo.database.eq_idOf_of_storeRaw hstored]
    exact eq_of_outputLine_eq houtput.symm
  have hmem : (⟨ObjectType.tree.kind, made.encode⟩ : RawObject) ∈
      repo.stored [⟨draw, .makeTree listing⟩] t := by
    refine List.mem_append_left _ ?_
    rw [Action.effect_makeTree hread hmade, Effect.mem_stored_iff, hstored]
    exact ⟨rfl, rfl⟩
  have hdiffers := hapart _ hmem
  obtain hform | hcollision := Canonical.idOf_eq_idOf_iff.mp hid
  · -- Equal bytes are read as one tree.
    have hkind : Canonical.isKind ObjectType.tree.kind = true := by decide
    obtain ⟨-, hencode⟩ := Canonical.form_injective hkind hkind hform
    have hdecode' := Tree.decode_encode_of_build
      (fun entry hentry => (Tree.isGiven_of_entriesOfListing hread entry hentry).1) hmade
    rw [hencode, hdecode, Except.ok.injEq] at hdecode'
    exact ⟨read, hread, hdecode' ▸ hmade⟩
  · exact absurd hcollision hdiffers

/-- A tree that a run stored is shown as its listing. Given that listing, a tree is made and its id
printed, and it is the same tree and nothing is stored exactly if a listing keeps the names of its
entries. For that the hash has to tell the objects of the run apart, with the one that is made of
the listing. This holds whatever numbers are drawn. -/
theorem makeTree_catFile (hfresh : repo.IsFresh r t₀) {ops before after : List Operation}
    (hops : ops = before ++ ⟨draw, .buildTree entries⟩ :: after)
    (hmodes : ∀ entry ∈ entries, entry.mode.IsGiven) (htree : Tree.build entries = .ok tree)
    (hok : (repo.buildTree draw entries (repo.run before t₀)).1 = .ok id)
    (hsize : tree.encode.length < Canonical.sizeBound)
    (hbranch : ∀ branch : BranchName, branch.name = id.text →
      (repo.run ops t₀).isFile (repo.refs.branchPath branch) = false)
    (hfree : Repository.CollisionFree
      (repo.stored (ops ++ [⟨draw', .makeTree (outputLine tree.listing)⟩]) t₀)) :
    catFile repo id.text .content (repo.run ops t₀)
        = (⟨outputLine tree.listing, none⟩, repo.run ops t₀) ∧
      (makeTree repo draw' (outputLine tree.listing) (repo.run ops t₀)
          = (⟨outputLine id.text, none⟩, repo.run ops t₀) ↔
        ∀ entry ∈ entries, entry.IsListable) := by
  obtain ⟨rfl, hmem⟩ := Repository.mem_stored_of_buildTree htree hok after
  rw [← hops] at hmem
  rw [Repository.stored_append] at hfree
  have hfree' : Repository.CollisionFree (repo.stored ops t₀) := fun a ha b hb =>
    hfree a (List.mem_append_left _ ha) b (List.mem_append_left _ hb)
  obtain ⟨hkind, hfile⟩ := hfresh.objectFile_of_mem_stored hmem hfree'
  obtain ⟨-, hload, hagain⟩ := Database.load_of_compress hkind hsize hfile
  have hdecode := Tree.decode_encode_of_build hmodes htree
  constructor
  · exact catFile_of_parse (Repository.resolve_text hbranch)
      (Database.parse_tree_of_load hload hdecode)
  rw [← Tree.build_listing_iff hmodes htree]
  constructor
  · apply build_of_makeTree hdecode
    intro object hobject
    have hdiffers := hfree object (List.mem_append_right _ hobject) _ (List.mem_append_left _ hmem)
    exact hdiffers
  · rintro ⟨read, hread, hbuild⟩
    exact makeTree_of_read hread ((Repository.buildTree_of_build hbuild).trans (hagain draw'))

/-- A file of no known mode whose name looks like the fields of a line, with a carriage return
inside. -/
theorem makeTree_catFile_blanks :
    let repo : Repository := ⟨⟨"/"⟩, {}⟩
    let entries : List TreeEntry := [⟨.other 0o664, "a\tb \rc", ⟨List.replicate 20 0, rfl⟩⟩]
    let tree : Tree := ⟨entries⟩
    let ops : List Operation := [⟨1, .buildTree entries⟩]
    let listing := outputLine tree.listing
    repo.IsFresh [] FileTree.empty ∧ (∀ entry ∈ entries, entry.mode.IsGiven) ∧
      Tree.build entries = .ok tree ∧ (repo.buildTree 1 entries FileTree.empty).1 = .ok tree.id ∧
      (∀ branch : BranchName, branch.name = tree.id.text →
        (repo.run ops FileTree.empty).isFile (repo.refs.branchPath branch) = false) ∧
      Repository.CollisionFree (repo.stored (ops ++ [⟨2, .makeTree listing⟩]) FileTree.empty) ∧
      (∀ entry ∈ entries, entry.IsListable) ∧
      catFile repo tree.id.text .content (repo.run ops FileTree.empty)
        = (⟨listing, none⟩, repo.run ops FileTree.empty) ∧
      makeTree repo 2 listing (repo.run ops FileTree.empty)
        = (⟨outputLine tree.id.text, none⟩, repo.run ops FileTree.empty) := by
  intro repo entries tree ops listing
  have hfresh : repo.IsFresh [] FileTree.empty := Repository.isFresh_empty rfl
  have hmodes : ∀ entry ∈ entries, entry.mode.IsGiven := by
    rw [List.forall_mem_singleton]
    exact .ofValue 0o664
  have htree : Tree.build entries = .ok tree := by decide +kernel
  have hread : Tree.entriesOfListing listing = .ok entries := by decide +kernel
  obtain ⟨hok, hnone⟩ : (repo.buildTree 1 entries FileTree.empty).1 = .ok tree.id ∧
      (repo.run ops FileTree.empty).isFile (repo.refs.headsPath.join ⟨tree.id.text⟩) = false := by
    decide +kernel
  have hbranch : ∀ branch : BranchName, branch.name = tree.id.text →
      (repo.run ops FileTree.empty).isFile (repo.refs.branchPath branch) = false :=
    Refs.isFile_branchPath_of_name hnone
  -- the same tree is stored twice
  have hstored : ∀ object ∈ repo.stored (ops ++ [⟨2, .makeTree listing⟩]) FileTree.empty,
      object = ⟨ObjectType.tree.kind, tree.encode⟩ := by
    intro object hmem
    obtain ⟨before, op, after, hsplit, hobject⟩ := Repository.exists_of_mem_stored hmem
    have hop : op ∈ [(⟨1, .buildTree entries⟩ : Operation), ⟨2, .makeTree listing⟩] := by
      have := List.mem_append_right before (List.mem_cons_self (a := op) (l := after))
      rwa [← hsplit] at this
    have heffect : op.action.effect repo (repo.run before FileTree.empty)
        = .ofObject (.tree tree) := by
      rcases List.mem_pair.mp hop with rfl | rfl
      · exact Action.effect_buildTree htree
      · exact Action.effect_makeTree hread htree
    rw [heffect, Effect.mem_stored_iff] at hobject
    cases hobject.1
    rfl
  have hfree : Repository.CollisionFree
      (repo.stored (ops ++ [⟨2, .makeTree listing⟩]) FileTree.empty) := by
    intro a ha b hb
    rw [hstored a ha, hstored b hb]
    exact fun h => h.1 rfl
  have hlistable : ∀ entry ∈ entries, entry.IsListable := by decide
  have hops : ops = [] ++ ⟨1, .buildTree entries⟩ :: [] := rfl
  obtain ⟨hshown, hmade⟩ :=
    makeTree_catFile hfresh hops hmodes htree hok (by decide +kernel) hbranch hfree
  exact ⟨hfresh, hmodes, htree, hok, hbranch, hfree, hlistable, hshown, hmade.mpr hlistable⟩

/-- A name that ends in a carriage return loses it on the way, so that another tree is made. -/
theorem makeTree_catFile_ne :
    let repo : Repository := ⟨⟨"/"⟩, {}⟩
    let tree : Tree := ⟨[⟨.regular, "a\r", ⟨List.replicate 20 0, rfl⟩⟩]⟩
    let other : Tree := ⟨[⟨.regular, "a", ⟨List.replicate 20 0, rfl⟩⟩]⟩
    let t := repo.run [⟨1, .buildTree tree.entries⟩] FileTree.empty
    (repo.buildTree 1 tree.entries FileTree.empty).1 = .ok tree.id ∧
      (∀ branch : BranchName, branch.name = tree.id.text →
        t.isFile (repo.refs.branchPath branch) = false) ∧
      ∃ listing, catFile repo tree.id.text .content t = (⟨listing, none⟩, t) ∧
        Tree.entriesOfListing listing = .ok other.entries ∧
        ∀ t', makeTree repo 2 listing t ≠ (⟨outputLine tree.id.text, none⟩, t') := by
  intro repo tree other t
  obtain ⟨hok, hnone, hfile⟩ : (repo.buildTree 1 tree.entries FileTree.empty).1 = .ok tree.id ∧
      t.isFile (repo.refs.headsPath.join ⟨tree.id.text⟩) = false ∧
      repo.database.objectFile t tree.id
        = .ok (Zlib.compress (Canonical.form "tree" tree.encode)) := by
    decide +kernel
  have hbranch : ∀ branch : BranchName, branch.name = tree.id.text →
      t.isFile (repo.refs.branchPath branch) = false :=
    Refs.isFile_branchPath_of_name hnone
  obtain ⟨-, hload, -⟩ := Database.load_of_compress (by decide) (by decide +kernel) hfile
  have hdecode : Tree.decode tree.encode = .ok tree := by decide +kernel
  have hparse := Database.parse_tree_of_load hload hdecode
  have hread : Tree.entriesOfListing (outputLine tree.listing) = .ok other.entries := by
    decide +kernel
  refine ⟨hok, hbranch, _, catFile_of_parse (Repository.resolve_text hbranch) hparse, hread, ?_⟩
  intro t' hmake
  obtain ⟨read, id, hread', hbuild, houtput⟩ := exists_of_makeTree hmake
  obtain rfl := Except.ok.inj (hread.symm.trans hread')
  obtain ⟨made, hmade, hstored⟩ := Repository.exists_of_buildTree hbuild
  have hother : Tree.build other.entries = .ok other := by decide +kernel
  obtain rfl := Except.ok.inj (hother.symm.trans hmade)
  have hid := repo.database.eq_idOf_of_storeRaw hstored
  have hne : other.id ≠ tree.id := by decide +kernel
  refine hne ?_
  rw [Tree.id, ← hid]
  exact eq_of_outputLine_eq houtput.symm

end Command

end ObjectStore
