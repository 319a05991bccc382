import ObjectStore.Proofs.BranchName
import ObjectStore.Proofs.Bytes
import ObjectStore.Proofs.FileTree.Questions
import ObjectStore.Proofs.Places
import ObjectStore.Refs

/-!
# Listing branches

The branches are listed by walking through the directory of the branches, to any depth, and every
file whose path from there is a branch name is one of them.

* `FileTree.mem_below_iff`: what is come upon below a directory.
* `BranchName.IsMadeOf`: the components of a name. A row of names is that of one name at most, and a
  name with an empty component has none.
* `Refs.mem_listBranches_iff`, `Refs.pairwise_listBranches`: which names are listed, and in which
  order.
* `Refs.branches_spec`: that is what the branches are, unless the path of some directory is too
  long. A file whose path is too long is listed like any other, although it cannot be found by that
  path (`Refs.branches_long`).
-/

namespace ObjectStore

/-! ## What is below a directory -/

namespace FileTree

variable {t : FileTree} {l row : Location} {node : Node} {p : Path}

/-- The names in a tree are such as a file system has. -/
def HasNames (t : FileTree) : Prop :=
  ∀ l, t.lookup l ≠ none → ∀ n ∈ l, Path.IsName n ∧ n.utf8ByteSize ≤ nameLimit

/-- The names of a tree are those of its entries. -/
theorem hasNames_of_entries
    (h : ∀ e ∈ t.entries, ∀ n ∈ e.1, Path.IsName n ∧ n.utf8ByteSize ≤ nameLimit) : t.HasNames := by
  intro l hl n hn
  have hne : l ≠ [] := List.ne_nil_of_mem hn
  obtain ⟨node, hnode⟩ := Option.ne_none_iff_exists'.mp hl
  exact h _ ((lookup_eq_some_iff hne).mp hnode) n hn

/-- The entries below a place, relative to it. -/
theorem mem_below_iff :
    (row, node) ∈ t.below l ↔ row ≠ [] ∧ t.lookup (l ++ row) = some node := by
  have hplace : l ++ row ≠ l ↔ row ≠ [] := by simp
  rw [below, List.mem_filterMap]
  constructor
  · rintro ⟨e, he, hrow⟩
    split_ifs at hrow with hbelow
    rw [Bool.and_eq_true, List.isPrefixOf_iff_prefix, bne_iff_ne] at hbelow
    obtain ⟨⟨rest, hrest⟩, hne⟩ := hbelow
    rw [← hrest, List.drop_left] at hrow
    cases hrow
    rw [← hrest] at hne
    refine ⟨hplace.mp hne, (lookup_eq_some_iff ?_).mpr (hrest ▸ he)⟩
    exact fun hnil => hplace.mp hne (List.append_eq_nil_iff.mp hnil).2
  · rintro ⟨hne, hlookup⟩
    have hnil : l ++ row ≠ [] := fun hnil => hne (List.append_eq_nil_iff.mp hnil).2
    refine ⟨_, (lookup_eq_some_iff hnil).mp hlookup, ?_⟩
    rw [if_pos, List.drop_left]
    rw [Bool.and_eq_true, List.isPrefixOf_iff_prefix, bne_iff_ne]
    exact ⟨List.prefix_append l row, hplace.mpr hne⟩

/-- Nothing is come upon twice. -/
theorem pairwise_below (t : FileTree) (l : Location) :
    (t.below l).Pairwise fun a b => a.1 ≠ b.1 := by
  have hplaces : t.entries.Pairwise fun e e' => e.1 ≠ e'.1 := List.pairwise_map.mp t.nodup
  rw [below, List.pairwise_filterMap]
  refine hplaces.imp fun {e e'} hne a ha a' ha' hsame => hne ?_
  split_ifs at ha ha' with hbelow hbelow'
  rw [Bool.and_eq_true, List.isPrefixOf_iff_prefix] at hbelow hbelow'
  obtain ⟨⟨rest, hrest⟩, -⟩ := hbelow
  obtain ⟨⟨rest', hrest'⟩, -⟩ := hbelow'
  rw [← hrest, List.drop_left] at ha
  rw [← hrest', List.drop_left] at ha'
  cases ha
  cases ha'
  rw [← hrest, ← hrest']
  exact congrArg _ hsame

/-- A path that ends in a slash leads to a directory, if it leads anywhere. -/
theorem directory_of_locate (hp : p.text.toList.getLast? = some '/') (h : t.locate p = .ok l) :
    t.lookup l = some .directory := by
  obtain ⟨-, -, -, hwalk⟩ := locate_eq_ok_iff.mp h
  rw [Path.names, hp] at hwalk
  simp only [beq_self_eq_true, if_true] at hwalk
  rw [List.foldlM_append, bind_eq_ok_iff] at hwalk
  obtain ⟨last, -, hlast⟩ := hwalk
  rw [List.foldlM_cons, bind_eq_ok_iff] at hlast
  obtain ⟨next, hstep, hnext⟩ := hlast
  cases hnext
  have hdir := directory_of_step hstep
  rw [step, hdir] at hstep
  simp only [if_true] at hstep
  cases hstep
  exact hdir

end FileTree

/-! ## Names and their components -/

namespace BranchName

variable {name : String} {row : List String}

/-- A name is made of a row of components, none of them empty, with slashes between them. -/
structure IsMadeOf (name : String) (row : List String) : Prop where
  ne_nil : row ≠ []
  component : ∀ n ∈ row, n ≠ "" ∧ '/' ∉ n.toList
  intercalate : String.intercalate "/" row = name

/-- Names with slashes between them are taken apart at these. -/
theorem pieces_intercalate (hne : row ≠ []) (h : ∀ n ∈ row, n ≠ "" ∧ '/' ∉ n.toList) :
    Path.pieces [] (String.intercalate "/" row).toList = row := by
  have hslash : "/".toList = ['/'] := rfl
  have hpiece : ∀ n : String, n ≠ "" → '/' ∉ n.toList → Path.pieces [] n.toList = [n] := by
    intro n hn hnone
    rw [Path.pieces_of_no_slash [] hnone]
    simp [hn]
  rw [String.toList_intercalate, hslash]
  induction row with
  | nil => exact absurd rfl hne
  | cons n row ih =>
    obtain ⟨⟨hn, hnone⟩, hrow⟩ := List.forall_mem_cons.mp h
    cases row with
    | nil => simpa using hpiece n hn hnone
    | cons m row =>
      have hrest := ih (List.cons_ne_nil m row) hrow
      rw [List.map_cons] at hrest ⊢
      rw [List.map_cons, List.intercalate_cons_cons, List.append_assoc, List.singleton_append,
        Path.pieces_append_slash, hpiece n hn hnone, hrest, List.singleton_append]

/-- The components of a name are what stands between its slashes. -/
theorem IsMadeOf.pieces_eq (h : IsMadeOf name row) : Path.pieces [] name.toList = row := by
  rw [← h.intercalate, pieces_intercalate h.ne_nil h.component]

/-- A row of names makes a text. -/
theorem isMadeOf_intercalate (hne : row ≠ []) (h : ∀ n ∈ row, Path.IsName n) :
    IsMadeOf (String.intercalate "/" row) row :=
  ⟨hne, fun n hn => ⟨(h n hn).1, (h n hn).2.1⟩, rfl⟩

end BranchName

namespace Refs

variable {refs : Refs} {t : FileTree} {heads row : Location} {name : String} {p : Path}
variable {branch : BranchName}

/-! ## The directory of the branches -/

/-- A file stands at a location below the directory of the branches. -/
def HasFile (refs : Refs) (t : FileTree) (row : Location) : Prop :=
  ∃ heads content, t.locate refs.headsPath = .ok heads ∧
    t.lookup (heads ++ row) = some (.file content)

/-- A directory below that of the branches has a path that is too long. -/
def TooDeep (refs : Refs) (t : FileTree) (p : Path) : Prop :=
  ∃ heads row, t.locate refs.headsPath = .ok heads ∧ row ≠ [] ∧
    t.lookup (heads ++ row) = some .directory ∧
    p = refs.headsPath.join ⟨String.intercalate "/" row⟩ ∧
    FileTree.pathLimit ≤ p.text.utf8ByteSize

/-- The path of the directory of the branches is that of its ref, with a slash behind it. -/
theorem headsPath_eq (refs : Refs) :
    refs.headsPath = ⟨refs.gitPath.text ++ refs.gitPath.separator ++ "refs/heads/"⟩ :=
  Path.join_eq rfl

/-- The directory of the branches lies straight down from the git directory. -/
theorem gitPath_join_extends (refs : Refs) (h : refs.gitPath.text ≠ "") :
    (refs.gitPath.join ⟨"refs/heads"⟩).Extends refs.gitPath ["refs", "heads"] :=
  Path.extends_join (q := ⟨"refs/heads"⟩) h (by decide) (by decide) (by decide) (by decide)
    (by decide)

/-- The path of the directory of the branches ends in a slash. -/
theorem getLast?_headsPath (refs : Refs) : refs.headsPath.text.toList.getLast? = some '/' := by
  rw [headsPath_eq, String.toList_append, List.getLast?_append_of_ne_nil _ (by decide)]
  rfl

/-- The path of the directory of the branches is not empty. -/
theorem headsPath_text_ne (refs : Refs) : refs.headsPath.text ≠ "" := by
  intro hempty
  have hlast := refs.getLast?_headsPath
  rw [hempty] at hlast
  cases hlast

/-- The directory of the branches is there if its path leads anywhere. -/
theorem isPresent_headsPath (h : t.locate refs.headsPath = .ok heads) :
    t.isPresent refs.headsPath = true :=
  FileTree.isPresent_iff.mpr
    ⟨heads, _, h, FileTree.directory_of_locate refs.getLast?_headsPath h⟩

/-- A branch lies straight down from the directory of the branches. -/
theorem branchPath_extends_headsPath (refs : Refs) (branch : BranchName) :
    (refs.branchPath branch).Extends refs.headsPath branch.components := by
  obtain ⟨hne, -, -, -, -, -, -, hlast, -⟩ := (BranchName.valid_iff branch.name).mp branch.valid
  exact Path.extends_join refs.headsPath_text_ne hne branch.isAbsolute_name hlast
    branch.zero_not_mem_name branch.components_plain

/-- A file below the directory of the branches is found by its path, if that is not too long. -/
theorem isFile_branchPath_iff (hnames : t.HasNames) (hrow : BranchName.IsMadeOf branch.name row)
    (hshort : (refs.branchPath branch).text.utf8ByteSize < FileTree.pathLimit) :
    t.isFile (refs.branchPath branch) = true ↔ refs.HasFile t row := by
  have hextends := refs.branchPath_extends_headsPath branch
  rw [BranchName.components, hrow.pieces_eq] at hextends
  rw [FileTree.isFile_iff_readFile]
  constructor
  · rintro ⟨content, hread⟩
    obtain ⟨l, hl, -⟩ := FileTree.readFile_eq_ok_iff.mp hread
    obtain ⟨heads, hheads, -⟩ :=
      FileTree.locate_of_extends hl hextends hrow.ne_nil refs.headsPath_text_ne
    obtain ⟨-, -, hfile⟩ := (FileTree.readFile_extends_iff hheads hextends).mp hread
    exact ⟨heads, content, hheads, hfile⟩
  · rintro ⟨heads, content, hheads, hfile⟩
    refine ⟨content, (FileTree.readFile_extends_iff hheads hextends).mpr ⟨hshort, ?_, hfile⟩⟩
    intro n hn
    have hthere : t.lookup (heads ++ row) ≠ none := hfile ▸ Option.some_ne_none _
    exact (hnames _ hthere n (List.mem_append_right heads hn)).2

/-! ## Which branches are listed -/

/-- The branch that something below the directory of the branches is. -/
def listed : Location × Node → Option BranchName
  | (row, .file _) => BranchName.parse? (String.intercalate "/" row)
  | (_, .directory) => none

/-- A file is listed as the branch whose name its row of names makes. -/
theorem listed_eq_some_iff {e : Location × Node} : listed e = some branch ↔
    (∃ content, e.2 = .file content) ∧ String.intercalate "/" e.1 = branch.name := by
  obtain ⟨row, node⟩ := e
  cases node with
  | directory => simp [listed]
  | file content => simp [listed, BranchName.parse?_eq_some_iff]

/-- The branches that are listed, if their directory can be found. -/
theorem listBranches_of_locate (h : t.locate refs.headsPath = .ok heads) :
    refs.listBranches t = ((t.below heads).filterMap listed).mergeSort BranchName.le := by
  simp only [listBranches, isPresent_headsPath h, h]
  refine congrArg (·.mergeSort BranchName.le) (List.filterMap_congr ?_)
  rintro ⟨row, node⟩ -
  cases node <;> rfl

/-- No branches are listed if their directory cannot be found. -/
theorem listBranches_of_error {fault : IoFault} (h : t.locate refs.headsPath = .error fault) :
    refs.listBranches t = [] := by
  rw [listBranches, h]
  split <;> simp_all

/-- A row that is come upon below the directory of the branches is that of its name. -/
theorem isMadeOf_of_mem_below (hnames : t.HasNames) {e : Location × Node}
    (h : e ∈ t.below heads) : BranchName.IsMadeOf (String.intercalate "/" e.1) e.1 := by
  obtain ⟨hne, hlookup⟩ := FileTree.mem_below_iff.mp h
  have hthere : t.lookup (heads ++ e.1) ≠ none := hlookup ▸ Option.some_ne_none _
  exact BranchName.isMadeOf_intercalate hne fun n hn =>
    (hnames _ hthere n (List.mem_append_right heads hn)).1

/-- The branches that are listed are those whose names are made of the row of a file. -/
theorem mem_listBranches_iff (hnames : t.HasNames) : branch ∈ refs.listBranches t ↔
    ∃ row, BranchName.IsMadeOf branch.name row ∧ refs.HasFile t row := by
  cases hheads : t.locate refs.headsPath with
  | error fault =>
    rw [listBranches_of_error hheads]
    refine iff_of_false List.not_mem_nil ?_
    rintro ⟨row, -, heads, content, hlocate, -⟩
    cases hheads.symm.trans hlocate
  | ok heads =>
    rw [listBranches_of_locate hheads, List.mem_mergeSort, List.mem_filterMap]
    constructor
    · rintro ⟨⟨row, node⟩, hbelow, hlisted⟩
      obtain ⟨⟨content, rfl⟩, hname⟩ := listed_eq_some_iff.mp hlisted
      refine ⟨row, hname ▸ isMadeOf_of_mem_below hnames hbelow, heads, content, hheads, ?_⟩
      exact (FileTree.mem_below_iff.mp hbelow).2
    · rintro ⟨row, hrow, heads', content, hlocate, hlookup⟩
      cases hheads.symm.trans hlocate
      refine ⟨(row, .file content), FileTree.mem_below_iff.mpr ⟨hrow.ne_nil, hlookup⟩, ?_⟩
      exact listed_eq_some_iff.mpr ⟨⟨content, rfl⟩, hrow.intercalate⟩

/-- No branch is listed twice. -/
theorem nodup_filterMap_listed (hnames : t.HasNames) (heads : Location) :
    ((t.below heads).filterMap listed).Nodup := by
  rw [List.Nodup, List.pairwise_filterMap]
  refine (t.pairwise_below heads).imp_of_mem ?_
  rintro e e' he he' hne a ha a' ha' rfl
  have hname := (listed_eq_some_iff.mp ha).2.trans (listed_eq_some_iff.mp ha').2.symm
  refine hne ?_
  rw [← (isMadeOf_of_mem_below hnames he).pieces_eq, hname,
    (isMadeOf_of_mem_below hnames he').pieces_eq]

/-- The names are listed in the order of their bytes, and none twice. -/
theorem pairwise_listBranches (hnames : t.HasNames) (refs : Refs) :
    (refs.listBranches t).Pairwise fun a b =>
      Bytes.ofString a.name < Bytes.ofString b.name := by
  cases hheads : t.locate refs.headsPath with
  | error fault =>
    rw [listBranches_of_error hheads]
    exact List.Pairwise.nil
  | ok heads =>
    have hnodup := nodup_filterMap_listed hnames heads
    rw [listBranches_of_locate hheads]
    exact (pairwise_mergeSort_lt (fun _ _ => rfl) (fun _ _ => BranchName.eq_of_name_eq) hnodup).imp
      Bytes.ofString_lt

/-! ## Which directories are opened -/

/-- The directory that something below the directory of the branches is. -/
def opened (refs : Refs) : Location × Node → Option Path
  | (row, .directory) => some (refs.headsPath.join ⟨String.intercalate "/" row⟩)
  | (_, .file _) => none

/-- The first directory that cannot be opened is the first one whose path is too long. -/
theorem unopened?_of_locate (h : t.locate refs.headsPath = .ok heads) :
    refs.unopened? t = ((t.listing heads).filterMap refs.opened).find?
      fun p => FileTree.pathLimit ≤ p.text.utf8ByteSize := by
  simp only [unopened?, isPresent_headsPath h, h]
  refine congrArg (List.find? fun p : Path => decide (FileTree.pathLimit ≤ p.text.utf8ByteSize))
    (List.filterMap_congr ?_)
  rintro ⟨row, node⟩ -
  cases node <;> rfl

/-- No directory is opened if that of the branches cannot be found. -/
theorem unopened?_of_error {fault : IoFault} (h : t.locate refs.headsPath = .error fault) :
    refs.unopened? t = none := by
  rw [unopened?, h]
  split <;> simp_all

/-- The directories with too long a path are those that are too deep. -/
theorem mem_filterMap_opened (hheads : t.locate refs.headsPath = .ok heads) :
    (p ∈ (t.listing heads).filterMap refs.opened ∧
      FileTree.pathLimit ≤ p.text.utf8ByteSize) ↔ refs.TooDeep t p := by
  rw [List.mem_filterMap, FileTree.listing]
  constructor
  · rintro ⟨⟨⟨row, node⟩, hbelow, hopened⟩, hlong⟩
    obtain ⟨hne, hlookup⟩ := FileTree.mem_below_iff.mp (List.mem_mergeSort.mp hbelow)
    cases node with
    | file content => cases hopened
    | directory =>
      cases hopened
      exact ⟨heads, row, hheads, hne, hlookup, rfl, hlong⟩
  · rintro ⟨heads', row, hlocate, hne, hlookup, rfl, hlong⟩
    cases hheads.symm.trans hlocate
    refine ⟨⟨(row, .directory), List.mem_mergeSort.mpr ?_, rfl⟩, hlong⟩
    exact FileTree.mem_below_iff.mpr ⟨hne, hlookup⟩

/-- A directory that could not be opened is too deep. -/
theorem tooDeep_of_unopened? (h : refs.unopened? t = some p) : refs.TooDeep t p := by
  cases hheads : t.locate refs.headsPath with
  | error fault =>
    rw [unopened?_of_error hheads] at h
    cases h
  | ok heads =>
    rw [unopened?_of_locate hheads] at h
    refine (mem_filterMap_opened hheads).mp ⟨List.mem_of_find?_eq_some h, ?_⟩
    simpa using List.find?_some h

/-- No directory is too deep if all of them could be opened. -/
theorem not_tooDeep_of_unopened? (h : refs.unopened? t = none) : ¬ refs.TooDeep t p := by
  intro hdeep
  obtain ⟨heads, row, hheads, hrest⟩ := id hdeep
  obtain ⟨hmem, hlong⟩ := (mem_filterMap_opened hheads).mpr hdeep
  rw [unopened?_of_locate hheads, List.find?_eq_none] at h
  exact h p hmem (decide_eq_true hlong)

/-! ## The branches -/

/-- Listing succeeds exactly if no directory is too deep. -/
theorem branches_eq_ok_iff {list : List BranchName} :
    refs.branches t = .ok list ↔ (∀ p, ¬ refs.TooDeep t p) ∧ refs.listBranches t = list := by
  unfold branches
  cases h : refs.unopened? t with
  | some p => exact iff_of_false nofun fun hall => hall.1 p (tooDeep_of_unopened? h)
  | none => simp [fun p => @not_tooDeep_of_unopened? refs t p h]

/-- If listing fails, the error names a directory that is too deep. -/
theorem tooDeep_of_branches_error {err : StoreError} (h : refs.branches t = .error err) :
    ∃ p, refs.TooDeep t p ∧ err = .io p (.unopened p) := by
  unfold branches at h
  cases hunopened : refs.unopened? t with
  | some p =>
    rw [hunopened] at h
    cases h
    exact ⟨p, tooDeep_of_unopened? hunopened, rfl⟩
  | none =>
    rw [hunopened] at h
    cases h

/-- The branches are listed unless the path of a directory below that of the branches is too long.
They come in the order of their bytes, none of them twice. A name is among them exactly if it is
that of a branch, none of its components is empty, and a file is where they lead to from the
directory of the branches; in short, if the path of the branch is that of a file, as long as the path
is not too long. -/
theorem branches_spec (hnames : t.HasNames) (refs : Refs) :
    ((∃ list, refs.branches t = .ok list) ↔ ∀ p, ¬ refs.TooDeep t p) ∧
    (∀ err, refs.branches t = .error err → ∃ p, refs.TooDeep t p ∧ err = .io p (.unopened p)) ∧
    ∀ list, refs.branches t = .ok list →
      (list.Pairwise fun a b => Bytes.ofString a.name < Bytes.ofString b.name) ∧
      (∀ name, name ∈ list.map BranchName.name ↔ ∃ branch row, BranchName.parse name = .ok branch ∧
        BranchName.IsMadeOf name row ∧ refs.HasFile t row) ∧
      ∀ name branch, BranchName.parse name = .ok branch →
        (refs.branchPath branch).text.utf8ByteSize < FileTree.pathLimit →
        (name ∈ list.map BranchName.name ↔
          (∃ row, BranchName.IsMadeOf name row) ∧ t.isFile (refs.branchPath branch) = true) := by
  refine ⟨by simp [branches_eq_ok_iff], fun err => tooDeep_of_branches_error, fun list hlist => ?_⟩
  obtain ⟨-, rfl⟩ := branches_eq_ok_iff.mp hlist
  have hmem : ∀ branch : BranchName, branch.name ∈ (refs.listBranches t).map BranchName.name ↔
      ∃ row, BranchName.IsMadeOf branch.name row ∧ refs.HasFile t row := by
    intro branch
    rw [← mem_listBranches_iff hnames, List.mem_map]
    constructor
    · rintro ⟨other, hother, hname⟩
      exact BranchName.eq_of_name_eq hname ▸ hother
    · exact fun h => ⟨branch, h, rfl⟩
  refine ⟨pairwise_listBranches hnames refs, fun name => ?_, fun name branch hparse hshort => ?_⟩
  · constructor
    · intro h
      obtain ⟨branch, -, rfl⟩ := List.mem_map.mp h
      obtain ⟨row, hrow, hfile⟩ := (hmem branch).mp h
      exact ⟨branch, row, BranchName.parse_eq_ok_iff.mpr rfl, hrow, hfile⟩
    · rintro ⟨branch, row, hparse, hrow, hfile⟩
      obtain rfl := BranchName.parse_eq_ok_iff.mp hparse
      exact (hmem branch).mpr ⟨row, hrow, hfile⟩
  · obtain rfl := BranchName.parse_eq_ok_iff.mp hparse
    rw [hmem]
    constructor
    · rintro ⟨row, hrow, hfile⟩
      exact ⟨⟨row, hrow⟩, (isFile_branchPath_iff hnames hrow hshort).mpr hfile⟩
    · rintro ⟨⟨row, hrow⟩, hfile⟩
      exact ⟨row, hrow, (isFile_branchPath_iff hnames hrow hshort).mp hfile⟩

/-- Two branches, one of them in a directory, and beside them a file whose name is that of none. -/
theorem branches_spec_nested :
    let refs : Refs := ⟨⟨"/.git"⟩⟩
    let nodes : List (Location × Node) :=
      [([".git"], .directory), ([".git", "refs"], .directory),
        ([".git", "refs", "heads"], .directory),
        ([".git", "refs", "heads", "main"], .file []),
        ([".git", "refs", "heads", "a.lock"], .file []),
        ([".git", "refs", "heads", "a"], .directory),
        ([".git", "refs", "heads", "a", "b"], .file [])]
    let t := nodes.foldl (fun t e => t.put e.1 e.2) FileTree.empty
    t.HasNames ∧ ∃ list, refs.branches t = .ok list ∧ "a/b" ∈ list.map BranchName.name ∧
      "main" ∈ list.map BranchName.name ∧ "a.lock" ∉ list.map BranchName.name := by
  intro refs nodes t
  have hnames : t.HasNames := FileTree.hasNames_of_entries (by decide +kernel)
  have hheads : t.locate refs.headsPath = .ok [".git", "refs", "heads"] := by decide +kernel
  have hshort : ∀ e ∈ t.below [".git", "refs", "heads"], e.2 = .directory →
      (refs.headsPath.join ⟨String.intercalate "/" e.1⟩).text.utf8ByteSize
        < FileTree.pathLimit := by decide +kernel
  obtain ⟨hopen, -, hlist⟩ := branches_spec hnames refs
  obtain ⟨list, hok⟩ := hopen.mpr fun p hdeep => by
    obtain ⟨heads, row, hlocate, hne, hlookup, rfl, hlong⟩ := hdeep
    cases hheads.symm.trans hlocate
    have hbelow := FileTree.mem_below_iff.mpr ⟨hne, hlookup⟩
    exact Nat.not_le.mpr (hshort (row, .directory) hbelow rfl) hlong
  obtain ⟨-, hmem, -⟩ := hlist list hok
  refine ⟨hnames, list, hok, (hmem _).mpr ?_, (hmem _).mpr ?_, fun h => ?_⟩
  · refine ⟨⟨"a/b", by decide⟩, ["a", "b"], BranchName.parse_eq_ok_iff.mpr rfl, ?_, ?_⟩
    · exact ⟨by decide, by decide, by decide⟩
    · exact ⟨_, [], hheads, by decide +kernel⟩
  · refine ⟨⟨"main", by decide⟩, ["main"], BranchName.parse_eq_ok_iff.mpr rfl, ?_, ?_⟩
    · exact ⟨by decide, by decide, by decide⟩
    · exact ⟨_, [], hheads, by decide +kernel⟩
  · obtain ⟨branch, -, hparse, -⟩ := (hmem _).mp h
    have hvalid := branch.valid
    rw [← BranchName.parse_eq_ok_iff.mp hparse] at hvalid
    exact absurd hvalid (by decide)

/-- A path to the directory of the branches that is almost as long as a path may be. The only file
in that directory is listed as a branch, although the path of the branch is that of no file: it is
too long. -/
theorem branches_long :
    let refs : Refs := ⟨⟨String.ofList (List.replicate 4080 '/')⟩⟩
    let branch : BranchName := ⟨"branch", by decide⟩
    let nodes : List (Location × Node) :=
      [(["refs"], .directory), (["refs", "heads"], .directory),
        (["refs", "heads", "branch"], .file [])]
    let t := nodes.foldl (fun t e => t.put e.1 e.2) FileTree.empty
    t.HasNames ∧ t.isDirectory refs.headsPath = true ∧ refs.branches t = .ok [branch] ∧
      t.isFile (refs.branchPath branch) = false := by
  intro refs branch nodes t
  have hnames : t.HasNames := FileTree.hasNames_of_entries (by decide +kernel)
  have hgit : refs.gitPath.text.utf8ByteSize = 4080 := utf8ByteSize_slashes 4080
  have hseparator : refs.gitPath.separator = "" := Path.separator_slashes 4079
  have hroot : t.locate refs.gitPath = .ok [] := FileTree.locate_slashes (by decide) t
  have hheads : t.locate refs.headsPath = .ok ["refs", "heads"] := by
    have hextends : (refs.gitPath.join ⟨"refs/heads"⟩).Extends refs.gitPath ["refs", "heads"] :=
      refs.gitPath_join_extends fun hempty => by
        rw [hempty] at hgit
        cases hgit
    have hpath : refs.headsPath = ⟨(refs.gitPath.join ⟨"refs/heads"⟩).text ++ "/"⟩ := by
      have hslash : "refs/heads/" = "refs/heads" ++ "/" := by decide
      rw [headsPath_eq, Path.join_eq (by decide), hslash, ← String.append_assoc]
    have hsize : (refs.gitPath.join ⟨"refs/heads"⟩).text.utf8ByteSize = 4090 := by
      rw [Path.join_eq (by decide), hseparator, String.utf8ByteSize_append,
        String.utf8ByteSize_append, hgit]
      decide
    rw [hpath]
    refine FileTree.locate_append_slash ?_ (by decide +kernel) ?_
    · exact (FileTree.locate_extends_eq_ok_iff hroot hextends).mpr
        ⟨by rw [hsize]; decide, rfl, by decide, fun _ => by decide +kernel⟩
    · rw [String.utf8ByteSize_append, hsize]
      decide
  have hbelow : t.below ["refs", "heads"] = [(["branch"], .file [])] := by decide +kernel
  have hlong : FileTree.pathLimit ≤ (refs.branchPath branch).text.utf8ByteSize := by
    rw [branchPath_eq, Path.join_eq (by decide), hseparator, String.utf8ByteSize_append,
      String.utf8ByteSize_append, hgit]
    decide
  refine ⟨hnames, ?_, branches_eq_ok_iff.mpr ⟨fun p hdeep => ?_, ?_⟩, ?_⟩
  · exact FileTree.isDirectory_iff.mpr ⟨_, hheads, by decide +kernel⟩
  · obtain ⟨heads, row, hlocate, hne, hlookup, -⟩ := hdeep
    cases hheads.symm.trans hlocate
    have hmem := FileTree.mem_below_iff.mpr ⟨hne, hlookup⟩
    rw [hbelow, List.mem_singleton] at hmem
    cases hmem
  · have hlisted : listed (["branch"], .file []) = some branch :=
      listed_eq_some_iff.mpr ⟨⟨[], rfl⟩, by decide⟩
    rw [listBranches_of_locate hheads, hbelow, List.filterMap_cons_some hlisted, List.filterMap_nil,
      List.mergeSort_singleton]
  · rw [Bool.eq_false_iff, ne_eq, FileTree.isFile_iff]
    rintro ⟨l, content, hl, -⟩
    have hextends := refs.branchPath_extends_headsPath branch
    obtain ⟨hshort, -⟩ := (FileTree.locate_extends_eq_ok_iff hheads hextends).mp hl
    exact Nat.not_le.mpr hshort hlong

end Refs

end ObjectStore
