import ObjectStore.Proofs.BranchName
import ObjectStore.Proofs.ObjectId
import ObjectStore.Revision

/-!
# How revisions are looked up

A revision is looked up in five ways, one after the other: as `HEAD`, as a branch, as a whole id, as
the first digits of an id, and then not at all. Here is what the texts are like that each of these
ways takes, and what `Repository.resolve` makes of them.

* `Revision.Names`: the branch that a text names, with `refs/heads/` in front or without.
* `Revision.IsPartial`: the first digits of an id.
* `Repository.HasBranch`, `Repository.NamesNoRef`: whether a branch takes a text.
-/

namespace ObjectStore

namespace Revision

variable {text : String} {branch : BranchName}

/-! ## Texts that name a branch -/

/-- A text names the branch whose ref it is. A text that is no ref may be the bare name of a
branch. -/
def Names (text : String) (branch : BranchName) : Prop :=
  text = Layout.headsFront ++ branch.name ∨
    text = branch.name ∧ ¬ Layout.headsFront.toList <+: text.toList

/-- The ref of a branch is shortened to its name. -/
theorem withoutFront_append (name : String) : withoutFront (Layout.headsFront ++ name) = name := by
  rw [withoutFront, BranchName.dropFront?_append, Option.getD_some]

/-- A text that is no ref of a branch is not shortened. -/
theorem withoutFront_eq_self (h : ¬ Layout.headsFront.toList <+: text.toList) :
    withoutFront text = text := by
  rw [withoutFront, BranchName.dropFront?_eq_none h, Option.getD_none]

/-- A text names a branch in short or in full. -/
theorem names_iff : Names text branch ↔ withoutFront text = branch.name := by
  by_cases hfront : Layout.headsFront.toList <+: text.toList
  · obtain ⟨rest, hrest⟩ := hfront
    obtain rfl : Layout.headsFront ++ String.ofList rest = text := by
      rw [← String.toList_inj, String.toList_append, String.toList_ofList, hrest]
    rw [withoutFront_append, Names]
    constructor
    · rintro (h | ⟨-, hnot⟩)
      · have := congrArg String.toList h
        rw [String.toList_append, String.toList_append] at this
        exact String.toList_inj.mp (List.append_cancel_left this)
      · refine absurd ?_ hnot
        rw [String.toList_append]
        exact List.prefix_append _ _
    · intro h
      rw [h]
      exact Or.inl rfl
  · rw [withoutFront_eq_self hfront]
    constructor
    · rintro (rfl | ⟨h, -⟩)
      · rw [String.toList_append] at hfront
        exact absurd (List.prefix_append _ _) hfront
      · exact h
    · exact fun h => Or.inr ⟨h, hfront⟩

/-- The digits of an id are no ref. -/
theorem withoutFront_text (id : ObjectId) : withoutFront id.text = id.text := by
  apply withoutFront_eq_self
  intro hfront
  have hr : 'r' ∈ Layout.headsFront.toList := by decide
  have hmem := hfront.subset hr
  rw [ObjectId.text, String.toList_ofList] at hmem
  exact id.not_mem_hex_of_ne (by decide) hmem

/-! ## Texts of digits -/

/-- A text of hexadecimal digits, of either case. -/
def IsDigits (text : String) : Prop := ∀ c ∈ text.toList, (Bytes.hexValue? c).isSome = true

/-- The characters of a text, in lower case. -/
def lowered (text : String) : List Char := text.toList.map Char.toLower

/-- Digits, enough of them to abbreviate an id, that are not a whole one. -/
structure IsPartial (text : String) : Prop where
  digits : IsDigits text
  enough : digitsNeeded ≤ text.toList.length
  short : text.toList.length ≠ 40

/-- An abbreviation is a row of digits that is long enough. -/
theorem isAbbreviation_iff :
    isAbbreviation text = true ↔ IsDigits text ∧ digitsNeeded ≤ text.toList.length := by
  rw [isAbbreviation, Bool.and_eq_true, decide_eq_true_eq, List.all_eq_true, and_comm]
  rfl

/-- Part of an id is an abbreviation. -/
theorem IsPartial.isAbbreviation (h : IsPartial text) : isAbbreviation text = true :=
  isAbbreviation_iff.mpr ⟨h.digits, h.enough⟩

/-- Part of an id is no id. -/
theorem IsPartial.parse?_eq_none (h : IsPartial text) : ObjectId.parse? text = none := by
  rw [← Option.not_isSome_iff_eq_none, ObjectId.isSome_parse?_iff]
  exact fun hfull => h.short hfull.1

end Revision

/-- Whether a branch of a given name has a file is a matter of the name. -/
theorem Refs.isFile_branchPath_of_name {refs : Refs} {t : FileTree} {name : String}
    (h : t.isFile (refs.headsPath.join ⟨name⟩) = false) (branch : BranchName)
    (hname : branch.name = name) : t.isFile (refs.branchPath branch) = false := by
  rw [branchPath, hname]
  exact h

namespace Repository

variable {repo : Repository} {t : FileTree} {text : String} {branch : BranchName} {id : ObjectId}

/-! ## Texts that a branch takes -/

/-- The text names a branch whose file is there. -/
def HasBranch (repo : Repository) (t : FileTree) (text : String) (branch : BranchName) : Prop :=
  Revision.Names text branch ∧ t.isFile (repo.refs.branchPath branch) = true

/-- The text is not `HEAD`, and it names no branch whose file is there. -/
def NamesNoRef (repo : Repository) (t : FileTree) (text : String) : Prop :=
  text ≠ Layout.headFile ∧ ∀ branch, ¬ repo.HasBranch t text branch

/-- A revision is taken for a branch exactly if it names one that is there. -/
theorem branchNamed?_eq_some_iff :
    repo.branchNamed? t text = some branch ↔ repo.HasBranch t text branch := by
  rw [branchNamed?, Option.filter_eq_some_iff, BranchName.parse?_eq_some_iff, HasBranch,
    Revision.names_iff]

/-- A revision that names no ref is not taken for a branch. -/
theorem NamesNoRef.branchNamed?_eq_none (h : repo.NamesNoRef t text) :
    repo.branchNamed? t text = none :=
  Option.eq_none_iff_forall_ne_some.mpr fun branch hbranch =>
    h.2 branch (branchNamed?_eq_some_iff.mp hbranch)

/-- A revision that names a branch resolves as that branch does. -/
theorem resolve_of_hasBranch (htext : text ≠ Layout.headFile)
    (hbranch : repo.HasBranch t text branch) :
    repo.resolve t text = (repo.refs.resolveBranch t branch).mapError .store := by
  rw [resolve, if_neg htext, branchNamed?_eq_some_iff.mpr hbranch]

/-- An id stands for itself, if no branch has its name. -/
theorem resolve_of_parse? (hfree : repo.NamesNoRef t text)
    (hid : ObjectId.parse? text = some id) : repo.resolve t text = .ok id := by
  rw [resolve, if_neg hfree.1, hfree.branchNamed?_eq_none]
  simp only [hid]

/-- What is neither a branch nor an id is looked up as digits. -/
theorem resolve_of_parse?_eq_none (hfree : repo.NamesNoRef t text)
    (hid : ObjectId.parse? text = none) : repo.resolve t text = repo.resolveDigits t text := by
  rw [resolve, if_neg hfree.1, hfree.branchNamed?_eq_none]
  simp only [hid]

/-- The digits of an id mean that id, unless a branch has them for a name. -/
theorem resolve_text (hbranch : ∀ branch : BranchName, branch.name = id.text →
    t.isFile (repo.refs.branchPath branch) = false) : repo.resolve t id.text = .ok id := by
  have hhead : id.text ≠ Layout.headFile := by
    intro h
    have hlength := congrArg (fun s => s.toList.length) h
    simp only [ObjectId.text, String.toList_ofList, id.length_hex] at hlength
    exact absurd hlength (by decide)
  refine resolve_of_parse? ⟨hhead, ?_⟩ (ObjectId.parse?_text id)
  rintro branch ⟨hnames, hfile⟩
  rw [Revision.names_iff, Revision.withoutFront_text] at hnames
  rw [hbranch branch hnames.symm] at hfile
  cases hfile

/-! ## How digits are looked up -/

section

variable (hfree : repo.NamesNoRef t text) (hdigits : Revision.IsPartial text)
include hfree hdigits

/-- Digits that no object has are an unknown revision. -/
theorem resolve_of_find_eq_nil (hfind : repo.database.find t text = []) :
    repo.resolve t text = .error (.unknownRevision text) := by
  rw [resolve_of_parse?_eq_none hfree hdigits.parse?_eq_none, resolveDigits,
    if_pos hdigits.isAbbreviation, hfind]

/-- Digits that one object has resolve to that one. -/
theorem resolve_of_find_eq_singleton (hfind : repo.database.find t text = [id]) :
    repo.resolve t text = .ok id := by
  rw [resolve_of_parse?_eq_none hfree hdigits.parse?_eq_none, resolveDigits,
    if_pos hdigits.isAbbreviation, hfind]

/-- Digits that several objects have are ambiguous. -/
theorem resolve_of_find_many {candidates : List ObjectId}
    (hfind : repo.database.find t text = candidates) (hmany : 2 ≤ candidates.length) :
    repo.resolve t text = .error (.ambiguous text candidates) := by
  rw [resolve_of_parse?_eq_none hfree hdigits.parse?_eq_none, resolveDigits,
    if_pos hdigits.isAbbreviation, hfind]
  cases candidates with
  | nil => exact absurd hmany (by decide)
  | cons a rest =>
    cases rest with
    | nil => exact absurd hmany (Nat.not_succ_le_self 1)
    | cons b rest => rfl

end

end Repository

end ObjectStore
