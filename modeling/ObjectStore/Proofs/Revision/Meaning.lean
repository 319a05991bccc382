import ObjectStore.Proofs.Database.Find
import ObjectStore.Proofs.Revision.Lookup

/-!
# What revisions mean

What a revision means is decided by the first way of looking it up that takes it, also if that ends
in an error. `Repository.Means` has one case for each way and each of its outcomes.

* `Repository.Abbreviates`: the ids that the first digits of an id may mean.
* `Repository.resolve_meaning`: what a revision is resolved to is what it means, after every run
  from a fresh root; and how later operations change what the first digits of an id mean.
-/

namespace ObjectStore.Repository

variable {repo : Repository} {r : Location} {t t₀ : FileTree} {text : String} {id : ObjectId}

/-! ## What a revision means -/

/-- The database has an object under this id, and its digits start with the given ones. -/
def Abbreviates (repo : Repository) (t : FileTree) (text : String) (id : ObjectId) : Prop :=
  repo.database.contains t id = true ∧ Revision.lowered text <+: id.hex

/-- What a revision means, in the order in which it is looked up. -/
inductive Means (repo : Repository) (t : FileTree) (text : String) :
    Except CommandError ObjectId → Prop
  /-- `HEAD` is the commit of the current branch. -/
  | head {id : ObjectId} (htext : text = Layout.headFile)
      (h : repo.refs.resolveHead t = .ok (some id)) : Means repo t text (.ok id)
  | headUnborn (htext : text = Layout.headFile) (h : repo.refs.resolveHead t = .ok none) :
      Means repo t text (.error .unbornHead)
  | headFault {err : StoreError} (htext : text = Layout.headFile)
      (h : repo.refs.resolveHead t = .error err) : Means repo t text (.error (.store err))
  /-- The name of a branch is what the branch points at. -/
  | branch {branch : BranchName} {id : ObjectId} (htext : text ≠ Layout.headFile)
      (hbranch : repo.HasBranch t text branch) (h : repo.refs.resolveBranch t branch = .ok id) :
      Means repo t text (.ok id)
  | branchFault {branch : BranchName} {err : StoreError} (htext : text ≠ Layout.headFile)
      (hbranch : repo.HasBranch t text branch) (h : repo.refs.resolveBranch t branch = .error err) :
      Means repo t text (.error (.store err))
  /-- Forty digits are an id, whether there is an object under it or not. -/
  | full {id : ObjectId} (hfree : repo.NamesNoRef t text) (hdigits : Revision.IsDigits text)
      (hlength : text.toList.length = 40) (hid : id.hex = Revision.lowered text) :
      Means repo t text (.ok id)
  /-- Other digits are the one id that they abbreviate, as long as there are enough of them. -/
  | unique {id : ObjectId} (hfree : repo.NamesNoRef t text) (hdigits : Revision.IsPartial text)
      (hid : ∀ other, repo.Abbreviates t text other ↔ other = id) : Means repo t text (.ok id)
  | ambiguous {candidates : List ObjectId} (hfree : repo.NamesNoRef t text)
      (hdigits : Revision.IsPartial text)
      (hmem : ∀ id, id ∈ candidates ↔ repo.Abbreviates t text id)
      (hsorted : candidates.Pairwise fun a b => a.text < b.text)
      (hmany : 2 ≤ candidates.length) : Means repo t text (.error (.ambiguous text candidates))
  | missing (hfree : repo.NamesNoRef t text) (hdigits : Revision.IsPartial text)
      (hnone : ∀ id, ¬ repo.Abbreviates t text id) :
      Means repo t text (.error (.unknownRevision text))
  /-- Anything else means nothing. -/
  | unknown (hfree : repo.NamesNoRef t text)
      (hdigits : ¬ (Revision.IsDigits text ∧ Revision.digitsNeeded ≤ text.toList.length)) :
      Means repo t text (.error (.unknownRevision text))

/-! ## What digits are found for -/

/-- What is found for digits is what they abbreviate. -/
theorem IsFresh.mem_find_iff_abbreviates (hfresh : repo.IsFresh r t₀) {ops : List Operation}
    (ht : repo.run ops t₀ = t) :
    id ∈ repo.database.find t text ↔ repo.Abbreviates t text id := by
  have htidy := hfresh.tidy.run ops
  rw [ht] at htidy
  rw [htidy.mem_find_iff, hfresh.exists_stored_iff ht, ← hfresh.contains_iff ht, Abbreviates,
    and_comm]
  rfl

/-- The candidates that are found are what the digits abbreviate, in ascending order. -/
theorem IsFresh.find_eq_iff (hfresh : repo.IsFresh r t₀) {ops : List Operation}
    (ht : repo.run ops t₀ = t) {candidates : List ObjectId} :
    repo.database.find t text = candidates ↔
      (∀ id, id ∈ candidates ↔ repo.Abbreviates t text id) ∧
        candidates.Pairwise fun a b => a.text < b.text := by
  have htidy := hfresh.tidy.run ops
  rw [ht] at htidy
  constructor
  · rintro rfl
    exact ⟨fun id => hfresh.mem_find_iff_abbreviates ht, htidy.pairwise_find text⟩
  · rintro ⟨hmem, hsorted⟩
    refine ObjectId.eq_of_mem_iff (htidy.pairwise_find text) hsorted fun id => ?_
    rw [hfresh.mem_find_iff_abbreviates ht, hmem]

/-! ## What a revision means is what it is resolved to -/

/-- A revision resolves to what it means. -/
theorem Means.resolve_eq (hfresh : repo.IsFresh r t₀) {ops : List Operation}
    (ht : repo.run ops t₀ = t) {result : Except CommandError ObjectId}
    (h : repo.Means t text result) : repo.resolve t text = result := by
  cases h with
  | head htext h => rw [resolve, if_pos htext, h]
  | headUnborn htext h => rw [resolve, if_pos htext, h]
  | headFault htext h => rw [resolve, if_pos htext, h]
  | branch htext hbranch h =>
    rw [resolve_of_hasBranch htext hbranch, h]
    rfl
  | branchFault htext hbranch h =>
    rw [resolve_of_hasBranch htext hbranch, h]
    rfl
  | full hfree _ _ hid => exact resolve_of_parse? hfree (ObjectId.parse?_eq_some_iff.mpr hid)
  | @unique id hfree hdigits hid =>
    refine resolve_of_find_eq_singleton hfree hdigits ((hfresh.find_eq_iff ht).mpr ?_)
    exact ⟨fun other => List.mem_singleton.trans (hid other).symm, List.pairwise_singleton _ _⟩
  | ambiguous hfree hdigits hmem hsorted hmany =>
    exact resolve_of_find_many hfree hdigits ((hfresh.find_eq_iff ht).mpr ⟨hmem, hsorted⟩) hmany
  | missing hfree hdigits hnone =>
    refine resolve_of_find_eq_nil hfree hdigits ((hfresh.find_eq_iff ht).mpr ?_)
    exact ⟨fun id => iff_of_false List.not_mem_nil (hnone id), List.Pairwise.nil⟩
  | unknown hfree hdigits =>
    have hnone : ObjectId.parse? text = none := by
      rw [← Option.not_isSome_iff_eq_none, ObjectId.isSome_parse?_iff]
      rintro ⟨hlength, hall⟩
      exact hdigits ⟨hall, by rw [hlength]; decide⟩
    rw [resolve_of_parse?_eq_none hfree hnone, resolveDigits, if_neg]
    exact fun habbreviation => hdigits (Revision.isAbbreviation_iff.mp habbreviation)

/-- Every revision means something, if only an error. -/
theorem IsFresh.exists_means (hfresh : repo.IsFresh r t₀) {ops : List Operation}
    (ht : repo.run ops t₀ = t) (text : String) : ∃ result, repo.Means t text result := by
  by_cases htext : text = Layout.headFile
  · cases hhead : repo.refs.resolveHead t with
    | error err => exact ⟨_, .headFault htext hhead⟩
    | ok id =>
      cases id with
      | none => exact ⟨_, .headUnborn htext hhead⟩
      | some id => exact ⟨_, .head htext hhead⟩
  by_cases hbranch : ∃ branch, repo.HasBranch t text branch
  · obtain ⟨branch, hbranch⟩ := hbranch
    cases hresolve : repo.refs.resolveBranch t branch with
    | error err => exact ⟨_, .branchFault htext hbranch hresolve⟩
    | ok id => exact ⟨_, .branch htext hbranch hresolve⟩
  have hfree : repo.NamesNoRef t text := ⟨htext, not_exists.mp hbranch⟩
  by_cases hdigits : Revision.IsDigits text ∧ Revision.digitsNeeded ≤ text.toList.length
  · by_cases hlength : text.toList.length = 40
    · obtain ⟨id, hid⟩ :=
        Option.isSome_iff_exists.mp (ObjectId.isSome_parse?_iff.mpr ⟨hlength, hdigits.1⟩)
      exact ⟨_, .full hfree hdigits.1 hlength (ObjectId.parse?_eq_some_iff.mp hid)⟩
    have hpartial : Revision.IsPartial text := ⟨hdigits.1, hdigits.2, hlength⟩
    cases hfind : repo.database.find t text with
    | nil =>
      obtain ⟨hmem, -⟩ := (hfresh.find_eq_iff ht).mp hfind
      exact ⟨_, .missing hfree hpartial fun id hid => List.not_mem_nil ((hmem id).mpr hid)⟩
    | cons id rest =>
      obtain ⟨hmem, hsorted⟩ := (hfresh.find_eq_iff ht).mp hfind
      cases rest with
      | nil =>
        exact ⟨.ok id, .unique hfree hpartial fun other =>
          (hmem other).symm.trans List.mem_singleton⟩
      | cons other rest =>
        exact ⟨_, .ambiguous hfree hpartial hmem hsorted (Nat.le_add_left 2 rest.length)⟩
  · exact ⟨_, .unknown hfree hdigits⟩

/-! ## What becomes of it -/

/-- An abbreviation of an object stays one. -/
theorem IsAt.abbreviates_run (h : repo.IsAt r t) (more : List Operation)
    (hid : repo.Abbreviates t text id) : repo.Abbreviates (repo.run more t) text id :=
  ⟨h.isFile_run more hid.1, hid.2⟩

/-- A text that names no branch after a run named none before. -/
theorem IsAt.namesNoRef_of_run (h : repo.IsAt r t) {more : List Operation}
    (hfree : repo.NamesNoRef (repo.run more t) text) : repo.NamesNoRef t text :=
  ⟨hfree.1, fun branch hbranch => hfree.2 branch ⟨hbranch.1, h.isFile_run more hbranch.2⟩⟩

/-- An id that digits abbreviate is what they mean, or one of the candidates. -/
theorem IsFresh.resolve_of_abbreviates (hfresh : repo.IsFresh r t₀) {ops : List Operation}
    (ht : repo.run ops t₀ = t) (hfree : repo.NamesNoRef t text)
    (hdigits : Revision.IsPartial text) (hid : repo.Abbreviates t text id) :
    repo.resolve t text = .ok id ∨ ∃ candidates,
      repo.resolve t text = .error (.ambiguous text candidates) ∧ id ∈ candidates := by
  have hfound : id ∈ repo.database.find t text := (hfresh.mem_find_iff_abbreviates ht).mpr hid
  cases hfind : repo.database.find t text with
  | nil =>
    rw [hfind] at hfound
    exact absurd hfound List.not_mem_nil
  | cons a rest =>
    cases rest with
    | nil =>
      rw [hfind, List.mem_singleton] at hfound
      exact Or.inl (hfound ▸ resolve_of_find_eq_singleton hfree hdigits hfind)
    | cons b rest =>
      have hmany := resolve_of_find_many hfree hdigits hfind (Nat.le_add_left 2 rest.length)
      exact Or.inr ⟨_, hmany, hfind ▸ hfound⟩

/-- An id that digits mean is one that they abbreviate. -/
theorem Means.abbreviates (hfree : repo.NamesNoRef t text) (hdigits : Revision.IsPartial text)
    (h : repo.Means t text (.ok id)) : repo.Abbreviates t text id := by
  cases h with
  | head htext => exact absurd htext hfree.1
  | branch _ hbranch => exact absurd hbranch (hfree.2 _)
  | full _ _ hlength => exact absurd hlength hdigits.short
  | unique _ _ hid => exact (hid id).mpr rfl

/-- Digits that every one of several candidates is still found for are ambiguous. -/
theorem resolve_of_candidates {later : FileTree} {candidates : List ObjectId}
    (hlater : ∀ id ∈ candidates, repo.resolve later text = .ok id ∨ ∃ found,
      repo.resolve later text = .error (.ambiguous text found) ∧ id ∈ found)
    (hsorted : candidates.Pairwise fun a b => a.text < b.text) (hmany : 2 ≤ candidates.length) :
    ∃ found, repo.resolve later text = .error (.ambiguous text found) ∧ candidates ⊆ found := by
  have hnot : ∀ id, repo.resolve later text ≠ .ok id := by
    -- Of two candidates, one is not that id.
    intro id hok
    have hsame : ∀ other ∈ candidates, other = id := by
      intro other hother
      obtain hother | ⟨found, herror, -⟩ := hlater other hother
      · rw [hok, Except.ok.injEq] at hother
        exact hother.symm
      · rw [hok] at herror
        cases herror
    have hlength : candidates.length ≤ [id].length :=
      (ObjectId.nodup_of_pairwise hsorted).length_le_of_subset fun other hother =>
        List.mem_singleton.mpr (hsame other hother)
    exact absurd (Nat.le_trans hmany hlength) (Nat.not_succ_le_self 1)
  obtain ⟨first, hfirst⟩ := List.exists_mem_of_length_pos (Nat.lt_of_succ_lt hmany)
  obtain hok | ⟨found, herror, -⟩ := hlater first hfirst
  · exact absurd hok (hnot first)
  refine ⟨found, herror, fun id hid => ?_⟩
  obtain hok | ⟨found', herror', hmem⟩ := hlater id hid
  · exact absurd hok (hnot id)
  · rw [herror] at herror'
    cases herror'
    exact hmem

/-- After every run from a fresh root, a revision is resolved to what it means. As long as a run
makes no branch of that name, it leaves what the first digits of an id mean as it is or makes it
ambiguous, and it keeps all candidates of what was ambiguous. -/
theorem resolve_meaning (hfresh : repo.IsFresh r t₀) {ops : List Operation}
    (ht : repo.run ops t₀ = t) (text : String) :
    (∀ result, repo.resolve t text = result ↔ repo.Means t text result) ∧
    ∀ more, Revision.IsPartial text → repo.NamesNoRef (repo.run more t) text →
      (∀ id, repo.resolve t text = .ok id →
        repo.resolve (repo.run more t) text = .ok id ∨ ∃ candidates,
          repo.resolve (repo.run more t) text = .error (.ambiguous text candidates) ∧
            id ∈ candidates) ∧
      ∀ candidates, repo.resolve t text = .error (.ambiguous text candidates) →
        ∃ candidates', repo.resolve (repo.run more t) text
          = .error (.ambiguous text candidates') ∧ candidates ⊆ candidates' := by
  have hmeans : ∀ result, repo.resolve t text = result ↔ repo.Means t text result := by
    intro result
    constructor
    · rintro rfl
      obtain ⟨result, hresult⟩ := hfresh.exists_means ht text
      rwa [hresult.resolve_eq hfresh ht]
    · exact fun h => h.resolve_eq hfresh ht
  refine ⟨hmeans, fun more hdigits hlater => ?_⟩
  have hat := hfresh.toIsAt.run ops
  rw [ht] at hat
  have hrun : repo.run (ops ++ more) t₀ = repo.run more t := by rw [run_append, ht]
  have hkept : ∀ id, repo.Abbreviates t text id → _ := fun id hid =>
    hfresh.resolve_of_abbreviates hrun hlater hdigits (hat.abbreviates_run more hid)
  constructor
  · intro id hok
    exact hkept id (((hmeans _).mp hok).abbreviates (hat.namesNoRef_of_run hlater) hdigits)
  · intro candidates herror
    cases (hmeans _).mp herror with
    | ambiguous _ _ hmem hsorted hmany =>
      exact resolve_of_candidates (fun id hid => hkept id ((hmem id).mp hid)) hsorted hmany

/-- The tree with an empty blob, so that it need not be made again for what comes after it. -/
theorem run_emptyBlob : (⟨⟨"/"⟩, {}⟩ : Repository).run [⟨1, .storeRaw "blob" []⟩] FileTree.empty =
    (((FileTree.empty.put [".git"] .directory).put [".git", "objects"] .directory).put
      [".git", "objects", "e6"] .directory).put
        [".git", "objects", "e6", "9de29bb2d1d6434b8b29ae775ad8c2e48c5391"]
        (.file (Zlib.compress (Canonical.form "blob" []))) :=
  FileTree.entries_injective (by decide +kernel)

/-- Two blobs whose ids start with the same four digits: these mean nothing before the first one is
stored, then that one, and are ambiguous once the other one is there too. -/
theorem resolve_meaning_blobs :
    let repo : Repository := ⟨⟨"/"⟩, {}⟩
    let first := Canonical.idOf "blob" []
    let t₁ := repo.run [⟨1, .storeRaw "blob" []⟩] FileTree.empty
    let t₂ := repo.run [⟨2, .storeRaw "blob" [3, 85]⟩] t₁
    repo.IsFresh [] FileTree.empty ∧ Revision.IsPartial "e69D" ∧ repo.NamesNoRef t₂ "e69D" ∧
      repo.resolve FileTree.empty "e69D" = .error (.unknownRevision "e69D") ∧
      repo.resolve t₁ "e69D" = .ok first ∧
      ∃ candidates, repo.resolve t₂ "e69D" = .error (.ambiguous "e69D" candidates) ∧
        first ∈ candidates := by
  intro repo first t₁ t₂
  let second := Canonical.idOf "blob" [3, 85]
  have hfresh : repo.IsFresh [] FileTree.empty := isFresh_empty rfl
  have hdigits : Revision.IsPartial "e69D" :=
    ⟨List.all_eq_true.mp (by decide), by decide, by decide⟩
  obtain ⟨hfirst, hsecond, hne⟩ : Revision.lowered "e69D" <+: first.hex ∧
      Revision.lowered "e69D" <+: second.hex ∧ second ≠ first := by decide +kernel
  have hstored₁ : repo.stored [⟨1, .storeRaw "blob" []⟩] FileTree.empty = [⟨"blob", []⟩] := by
    decide +kernel
  obtain ⟨hfile, hstored₂⟩ : t₂.isFile (repo.refs.headsPath.join ⟨"e69D"⟩) = false ∧
      repo.stored [⟨2, .storeRaw "blob" [3, 85]⟩] t₁ = [⟨"blob", [3, 85]⟩] := by
    change (repo.run [⟨2, .storeRaw "blob" [3, 85]⟩] t₁).isFile _ = false ∧ _
    rw [show t₁ = _ from run_emptyBlob]
    decide +kernel
  have hrun : repo.run ([⟨1, .storeRaw "blob" []⟩] ++ [⟨2, .storeRaw "blob" [3, 85]⟩])
      FileTree.empty = t₂ := repo.run_append _ _ _
  have hfree₂ : repo.NamesNoRef t₂ "e69D" := by
    have hname : Revision.withoutFront "e69D" = "e69D" := by decide +kernel
    refine ⟨by decide, ?_⟩
    rintro branch ⟨hnames, hthere⟩
    rw [Revision.names_iff, hname] at hnames
    rw [Refs.isFile_branchPath_of_name hfile branch hnames.symm] at hthere
    cases hthere
  have hfree₁ : repo.NamesNoRef t₁ "e69D" := (hfresh.toIsAt.run _).namesNoRef_of_run hfree₂
  have hfree₀ : repo.NamesNoRef FileTree.empty "e69D" := hfresh.toIsAt.namesNoRef_of_run hfree₁
  obtain ⟨hmeans₀, -⟩ := resolve_meaning hfresh (repo.run_nil _) "e69D"
  obtain ⟨hmeans₁, hlater⟩ := resolve_meaning hfresh (t := t₁) rfl "e69D"
  obtain ⟨hkept, -⟩ := hlater [⟨2, .storeRaw "blob" [3, 85]⟩] hdigits hfree₂
  have hunknown : repo.resolve FileTree.empty "e69D" = .error (.unknownRevision "e69D") := by
    refine (hmeans₀ _).mpr (.missing hfree₀ hdigits ?_)
    rintro id ⟨hcontains, -⟩
    obtain ⟨object, hmem, -⟩ := (hfresh.contains_iff (repo.run_nil _)).mp hcontains
    exact List.not_mem_nil hmem
  have hunique : repo.resolve t₁ "e69D" = .ok first := by
    refine (hmeans₁ _).mpr (.unique hfree₁ hdigits fun other => ?_)
    rw [Abbreviates, hfresh.contains_iff rfl, hstored₁]
    constructor
    · rintro ⟨⟨object, hmem, rfl⟩, -⟩
      rw [List.mem_singleton.mp hmem]
    · rintro rfl
      exact ⟨⟨_, List.mem_singleton_self _, rfl⟩, hfirst⟩
  have habbreviated : repo.Abbreviates t₂ "e69D" second := by
    refine ⟨(hfresh.contains_iff hrun).mpr ⟨⟨"blob", [3, 85]⟩, ?_, rfl⟩, hsecond⟩
    rw [stored_append]
    refine List.mem_append_right _ ?_
    change _ ∈ repo.stored _ t₁
    rw [hstored₂]
    exact List.mem_singleton_self _
  refine ⟨hfresh, hdigits, hfree₂, hunknown, hunique, (hkept first hunique).resolve_left ?_⟩
  intro hok
  obtain hsame | ⟨candidates, herror, -⟩ :=
    hfresh.resolve_of_abbreviates hrun hfree₂ hdigits habbreviated
  · rw [hok, Except.ok.injEq] at hsame
    exact hne hsame.symm
  · rw [hok] at herror
    cases herror

end ObjectStore.Repository
