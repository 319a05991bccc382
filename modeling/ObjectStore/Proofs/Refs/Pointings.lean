import ObjectStore.Proofs.Database.Persistence

/-!
# Where a run points the branches

What stands below the directory of branches, along every run from a fresh root, is told by the
attempts of the run to point branches at ids. `Repository.pointings` lists them, whether they
succeeded or not.

* `Repository.IsAt.lookup_setBranch_cases`: an attempt that succeeds puts its file in the place of
  the branch. Otherwise, and everywhere else, it may make a directory that leads to that place, and
  nothing more.
* `Repository.Points`: a file is there exactly if the branches with these components were pointed
  at an id, and it holds the last one; a directory is there only if it leads to a branch that was
  tried.
* `Repository.Points.run`: every run keeps this, with its own attempts.
* `Repository.Points.readFile_of_last`, `Repository.Points.readFile_eq_notFound`: the file of a
  branch holds the id that it was last pointed at. If there is none, the file is missing as long as
  its place is clear (`Repository.IsClear`), as it is unless an attempt at another branch got in
  its way (`Pointing.Obstructs`).
-/

namespace ObjectStore

/-! ## Attempts -/

/-- An attempt to point a branch at an id. -/
structure Pointing where
  branch : BranchName
  id : ObjectId
  succeeded : Bool

namespace Pointing

/-- The id that the branches with the given components were last pointed at. -/
def last (pointings : List Pointing) (names : List String) : Option ObjectId :=
  (pointings.filter fun p => p.succeeded && p.branch.components == names).getLast?.map Pointing.id

variable {pointings : List Pointing} {p : Pointing} {names : List String} {x : ObjectId}

/-- Without attempts, nothing was pointed anywhere. -/
theorem last_nil (names : List String) : last [] names = none := rfl

/-- An attempt that succeeded is the last one in its place. -/
theorem last_concat_self (h : p.succeeded = true) :
    last (pointings ++ [p]) p.branch.components = some p.id := by
  simp [last, h]

/-- An attempt that failed, or in another place, makes no difference. -/
theorem last_concat_of_ne (h : ¬ (p.succeeded = true ∧ p.branch.components = names)) :
    last (pointings ++ [p]) names = last pointings names := by
  have hskip : (p.succeeded && p.branch.components == names) = false := by
    rw [Bool.eq_false_iff, ne_eq, Bool.and_eq_true, beq_iff_eq]
    exact h
  rw [last, List.filter_append, List.filter_cons_of_neg (by simp [hskip]), List.filter_nil,
    List.append_nil, last]

/-- The attempt is at a branch whose file would be in the way of the given one, or have that one in
its own way: a file there leaves no room for a directory, and even a failed attempt may leave a
directory where the given file should be. -/
def Obstructs (p : Pointing) (names : List String) : Prop :=
  p.branch.components ≠ names ∧
    (p.succeeded = true ∧ p.branch.components <+: names ∨ names <+: p.branch.components)

instance (p : Pointing) (names : List String) : Decidable (p.Obstructs names) :=
  inferInstanceAs (Decidable (_ ∧ (_ ∧ _ ∨ _)))

/-- What was pointed at was last pointed at something. -/
theorem last_ne_none (hp : p ∈ pointings) (hok : p.succeeded = true) :
    last pointings p.branch.components ≠ none := by
  have hmem : p ∈ pointings.filter fun q =>
      q.succeeded && q.branch.components == p.branch.components :=
    List.mem_filter.mpr ⟨hp, by simp [hok]⟩
  rw [last, ne_eq, Option.map_eq_none_iff, List.getLast?_eq_none_iff]
  exact List.ne_nil_of_mem hmem

/-- A branch that was never pointed at an id, and that no attempt got in the way of, lies below none
that was. -/
theorem not_prefix_of_not_obstructs (hlast : last pointings names = none)
    (hclear : ∀ p ∈ pointings, ¬ p.Obstructs names) :
    ∀ p ∈ pointings, p.succeeded = true → ¬ p.branch.components <+: names := by
  intro p hp hok hprefix
  refine hclear p hp ⟨?_, Or.inl ⟨hok, hprefix⟩⟩
  rintro rfl
  exact last_ne_none hp hok hlast

/-- What was last pointed at was pointed at. -/
theorem exists_of_last (h : last pointings names = some x) :
    ∃ p ∈ pointings, p.succeeded = true ∧ p.branch.components = names ∧ p.id = x := by
  obtain ⟨p, hp, rfl⟩ := Option.map_eq_some_iff.mp h
  obtain ⟨hmem, hmatch⟩ := List.mem_filter.mp (List.mem_of_getLast? hp)
  rw [Bool.and_eq_true, beq_iff_eq] at hmatch
  exact ⟨p, hmem, hmatch.1, hmatch.2, rfl⟩

end Pointing

/-- The attempt that a write is, if it is one. -/
def Effect.pointings (repo : Repository) (draw : UInt32) (t : FileTree) : Effect → List Pointing
  | point branch id => [⟨branch, id, (repo.refs.setBranch draw branch id t).1.toBool⟩]
  | _ => []

namespace Repository

/-- The attempts of a run, in order. -/
def pointings (repo : Repository) : List Operation → FileTree → List Pointing
  | [], _ => []
  | op :: ops, t =>
    (op.action.effect repo t).pointings repo op.draw t ++ repo.pointings ops (op.run repo t)

/-! ## Below the directory of branches -/

/-- The place some names below the directory of branches. -/
def headsPlace (r : Location) (names : List String) : Location :=
  r ++ ([".git", "refs", "heads"] ++ names)

variable {repo : Repository} {r : Location} {t : FileTree} {names : List String} {draw : UInt32}

/-- Branches with other components have other places. -/
theorem headsPlace_injective {names' : List String} (h : headsPlace r names = headsPlace r names') :
    names = names' :=
  List.append_cancel_left (List.append_cancel_left h)

/-- No object is kept there, nor is `HEAD`. -/
theorem headsPlace_ne_headPlace : headsPlace r names ≠ headPlace r := by
  intro h
  have := List.append_cancel_left h
  simp at this

/-- No branch is kept where an object is. -/
theorem headsPlace_ne_objectPlace (id : ObjectId) : headsPlace r names ≠ objectPlace r id := by
  intro h
  have := List.append_cancel_left h
  simp at this

/-- No branch is kept where a directory of the repository itself is. -/
theorem not_isFrame_headsPlace (hne : names ≠ []) : ¬ IsFrame r (headsPlace r names) := by
  rintro (h | h)
  · have := (List.prefix_append_right_inj r).mp h
    simp at this
  · have := ((List.prefix_append_right_inj r).mp h).length_le
    have := List.length_pos_iff.mpr hne
    simp only [List.length_append, List.length_cons, List.length_nil] at *
    omega

/-- Writes that point no branch leave everything there alone. -/
theorem IsAt.lookup_headsPlace (h : repo.IsAt r t) {effect : Effect} (hne : names ≠ [])
    (hpoint : ∀ branch id, effect ≠ .point branch id) :
    (effect.apply repo draw t).lookup (headsPlace r names) = t.lookup (headsPlace r names) := by
  refine (h.apply_grows draw effect).lookup_eq ?_ ?_
  · intro hmade
    cases effect with
    | nothing => exact hmade
    | create => exact not_isFrame_headsPlace hne hmade
    | store object =>
      have := (List.prefix_append_right_inj r).mp hmade
      simp at this
    | point branch id => exact hpoint branch id rfl
  · intro content hwritten
    cases effect with
    | nothing => exact hwritten
    | create => exact headsPlace_ne_headPlace hwritten.place
    | store object => exact headsPlace_ne_objectPlace _ hwritten.2.place
    | point branch id => exact hpoint branch id rfl

/-- Pointing a branch at an id puts a file in its place if it succeeds. Otherwise, and everywhere
else, it makes a directory that leads there, or nothing. -/
theorem IsAt.lookup_setBranch_cases (h : repo.IsAt r t) (draw : UInt32) (branch : BranchName)
    (id : ObjectId) {succeeded : Bool} {t' : FileTree}
    (hset : (repo.refs.setBranch draw branch id t).1.toBool = succeeded)
    (ht : (repo.refs.setBranch draw branch id t).2 = t') (names : List String) :
    (succeeded = true ∧ branch.components = names) ∧
        t'.lookup (headsPlace r names) = some (.file (Refs.branchContent id)) ∨
      ¬ (succeeded = true ∧ branch.components = names) ∧
        (t'.lookup (headsPlace r names) = t.lookup (headsPlace r names) ∨
          t.lookup (headsPlace r names) = none ∧
            t'.lookup (headsPlace r names) = some .directory ∧
            names <+: branch.components ∧ names ≠ branch.components) := by
  -- a directory on the way to the branch
  have hmade : headsPlace r names <+: (branchPlace r branch).dropLast →
      names <+: branch.components ∧ names ≠ branch.components := by
    intro hprefix
    have hplace : headsPlace r names <+: branchPlace r branch :=
      hprefix.trans (List.dropLast_prefix _)
    refine ⟨(List.prefix_append_right_inj _).mp ((List.prefix_append_right_inj r).mp hplace), ?_⟩
    rintro rfl
    have hlength := hprefix.length_le
    rw [List.length_dropLast, headsPlace, branchPlace, List.length_append, List.length_append,
      List.length_cons] at hlength
    omega
  obtain ⟨err, made, heq, hgrows⟩ | ⟨made, heq, hgrows, hread⟩ := h.setBranch_spec draw branch id
  · rw [heq] at hset ht
    subst hset ht
    refine Or.inr ⟨by simp [Except.toBool], ?_⟩
    obtain hsame | ⟨hnone, hdir, hway⟩ | ⟨-, content, -, hw⟩ := hgrows (headsPlace r names)
    · exact Or.inl hsame
    · exact Or.inr ⟨hnone, hdir, hmade hway⟩
    · exact hw.elim
  · rw [heq] at hset ht
    subst hset ht
    by_cases hnames : branch.components = names
    · refine Or.inl ⟨⟨rfl, hnames⟩, ?_⟩
      have hat : repo.IsAt r made := h.mono fun _ => hgrows.directory
      obtain ⟨l, hl, hfile⟩ := FileTree.readFile_eq_ok_iff.mp hread
      rwa [hat.eq_of_locate_branchPath hl, branchPlace, hnames] at hfile
    · refine Or.inr ⟨fun hboth => hnames hboth.2, ?_⟩
      obtain hsame | ⟨hnone, hdir, hway⟩ | ⟨-, content, -, hw⟩ := hgrows (headsPlace r names)
      · exact Or.inl hsame
      · exact Or.inr ⟨hnone, hdir, hmade hway⟩
      · exact absurd (headsPlace_injective hw.place).symm hnames

/-! ## The invariant of runs -/

/-- The files below the directory of branches hold the ids that branches were last pointed at, and
the directories there lead to branches that were tried. -/
structure Points (repo : Repository) (r : Location) (attempts : List Pointing) (t : FileTree) :
    Prop extends repo.IsAt r t where
  file : ∀ names content, names ≠ [] →
    (t.lookup (headsPlace r names) = some (.file content) ↔
      ∃ id, Pointing.last attempts names = some id ∧ content = Refs.branchContent id)
  way : ∀ names, names ≠ [] → t.lookup (headsPlace r names) = some .directory →
    ∃ p ∈ attempts, names <+: p.branch.components ∧ names ≠ p.branch.components

variable {attempts : List Pointing}

/-- In a fresh root no branch was set. -/
theorem IsFresh.points (h : repo.IsFresh r t) : repo.Points r [] t where
  toIsAt := h.toIsAt
  file names content hne := by
    rw [headsPlace, h.empty _ (by simp)]
    simp [Pointing.last_nil]
  way names hne hdir := by
    rw [headsPlace, h.empty _ (by simp)] at hdir
    cases hdir

/-- A write keeps the invariant, with the attempt that it is. -/
theorem Points.apply (h : repo.Points r attempts t) (effect : Effect)
    (hat : repo.IsAt r (effect.apply repo draw t)) :
    repo.Points r (attempts ++ effect.pointings repo draw t) (effect.apply repo draw t) := by
  by_cases hpoint : ∃ branch id, effect = .point branch id
  · obtain ⟨branch, id, rfl⟩ := hpoint
    have hcases := h.lookup_setBranch_cases draw branch id rfl rfl
    refine ⟨hat, fun names content hne => ?_, fun names hne hdir => ?_⟩
    · obtain ⟨⟨hok, rfl⟩, hput⟩ | ⟨hnot, hkeep⟩ := hcases names
      · rw [Effect.apply, hput, Effect.pointings, Pointing.last_concat_self hok]
        simp [eq_comm]
      · rw [Effect.pointings, Pointing.last_concat_of_ne hnot, ← h.file names content hne,
          Effect.apply]
        obtain hsame | ⟨hnone, hmade, -⟩ := hkeep
        · rw [hsame]
        · simp [hnone, hmade]
    · obtain ⟨-, hput⟩ | ⟨-, hsame | ⟨-, -, hway⟩⟩ := hcases names
      · rw [Effect.apply, hput] at hdir
        cases hdir
      · rw [Effect.apply, hsame] at hdir
        obtain ⟨p, hp, hway⟩ := h.way names hne hdir
        exact ⟨p, List.mem_append_left _ hp, hway⟩
      · exact ⟨_, List.mem_append_right _ (List.mem_singleton_self _), hway⟩
  · have hnot : ∀ branch id, effect ≠ .point branch id := fun branch id heq =>
      hpoint ⟨branch, id, heq⟩
    have hnone : effect.pointings repo draw t = [] := by
      cases effect with
      | point branch id => exact absurd rfl (hnot branch id)
      | _ => rfl
    rw [hnone, List.append_nil]
    refine ⟨hat, fun names content hne => ?_, fun names hne hdir => ?_⟩
    · rw [h.lookup_headsPlace hne hnot]
      exact h.file names content hne
    · rw [h.lookup_headsPlace hne hnot] at hdir
      exact h.way names hne hdir

/-- An operation keeps the invariant, with the attempt that it makes. -/
theorem Points.run_operation (h : repo.Points r attempts t) (op : Operation) :
    repo.Points r (attempts ++ (op.action.effect repo t).pointings repo op.draw t)
      (op.run repo t) := by
  have hat := h.toIsAt.run_operation op
  rw [op.run_eq_apply_effect] at hat ⊢
  exact h.apply (op.action.effect repo t) hat

/-- Every run keeps the invariant, with its attempts. -/
theorem Points.run (h : repo.Points r attempts t) (ops : List Operation) :
    repo.Points r (attempts ++ repo.pointings ops t) (repo.run ops t) := by
  induction ops generalizing attempts t with
  | nil => simpa [Repository.pointings] using h
  | cons op ops ih =>
    rw [Repository.pointings, ← List.append_assoc]
    exact ih (h.run_operation op)

/-! ## Reading the file of a branch -/

variable {branch : BranchName} {id : ObjectId}

/-- The lengths of the directories' own names are in no path's way. -/
theorem utf8ByteSize_le_of_mem_heads (h : ∀ n ∈ names, n.utf8ByteSize ≤ FileTree.nameLimit) :
    ∀ n ∈ [".git", "refs", "heads"] ++ names, n.utf8ByteSize ≤ FileTree.nameLimit := by
  have hfront : ∀ n ∈ [".git", "refs", "heads"], n.utf8ByteSize ≤ FileTree.nameLimit := by decide
  exact List.forall_mem_append.mpr ⟨hfront, h⟩

/-- The file of a branch holds the id that it was last pointed at. -/
theorem Points.readFile_of_last (h : repo.Points r attempts t)
    (hshort : (repo.refs.branchPath branch).text.utf8ByteSize < FileTree.pathLimit)
    (hnames : ∀ n ∈ branch.components, n.utf8ByteSize ≤ FileTree.nameLimit)
    (hlast : Pointing.last attempts branch.components = some id) :
    t.readFile (repo.refs.branchPath branch) = .ok (Refs.branchContent id) := by
  have hfile := (h.file _ _ branch.components_ne_nil).mpr ⟨id, hlast, rfl⟩
  exact (FileTree.readFile_extends_iff h.root (h.branchPath_extends branch)).mpr
    ⟨hshort, utf8ByteSize_le_of_mem_heads hnames, hfile⟩

/-- A branch that was not pointed at an id has no file, and nothing else is where it would be,
unless an attempt at another branch got in its way. -/
theorem Points.lookup_eq_none (h : repo.Points r attempts t)
    (hlast : Pointing.last attempts branch.components = none)
    (hclear : ∀ p ∈ attempts, ¬ p.Obstructs branch.components) :
    t.lookup (headsPlace r branch.components) = none := by
  cases hnode : t.lookup (headsPlace r branch.components) with
  | none => rfl
  | some node =>
    cases node with
    | file content =>
      obtain ⟨id, hid, -⟩ := (h.file _ _ branch.components_ne_nil).mp hnode
      rw [hid] at hlast
      cases hlast
    | directory =>
      obtain ⟨p, hp, hway, hne⟩ := h.way _ branch.components_ne_nil hnode
      exact absurd ⟨Ne.symm hne, Or.inr hway⟩ (hclear p hp)

/-- There is no file on the way to a branch if no branch on the way was pointed at an id. -/
theorem Points.lookup_ne_file (h : repo.Points r attempts t)
    (hheads : t.lookup (headsPlace r []) = some .directory)
    (hway : ∀ p ∈ attempts, p.succeeded = true → ¬ p.branch.components <+: branch.components)
    {front : List String} (hfront : front <+: [".git", "refs", "heads"] ++ branch.components)
    (content : Bytes) : t.lookup (r ++ front) ≠ some (.file content) := by
  intro hfile
  have hheadsFront : [".git", "refs", "heads"] <+: [".git", "refs", "heads"] ++ branch.components :=
    List.prefix_append _ _
  obtain ⟨rest, hrest⟩ | ⟨names, rfl⟩ := List.prefix_or_prefix_of_prefix hfront hheadsFront
  · -- The directories of the repository are no files.
    have hdir : t.lookup (r ++ front) = some .directory := by
      rw [headsPlace, List.append_nil] at hheads
      exact FileTree.directory_of_prefix hheads
        ((List.prefix_append_right_inj r).mpr ⟨rest, hrest⟩)
    rw [hfile] at hdir
    cases hdir
  · by_cases hne : names = []
    · rw [hne] at hfile
      rw [headsPlace, hfile] at hheads
      cases hheads
    · obtain ⟨id, hid, -⟩ := (h.file names content hne).mp hfile
      obtain ⟨p, hp, hok, rfl, -⟩ := Pointing.exists_of_last hid
      exact hway p hp hok ((List.prefix_append_right_inj _).mp hfront)

/-! ## Clear places -/

/-- The path of a branch can be followed to its place, and there is no directory. No branch on the
way was pointed at an id, so no file keeps it from being followed. -/
structure IsClear (repo : Repository) (attempts : List Pointing) (t : FileTree)
    (branch : BranchName) : Prop where
  short : (repo.refs.branchPath branch).text.utf8ByteSize < FileTree.pathLimit
  way : ∀ p ∈ attempts, p.succeeded = true → ¬ p.branch.components <+: branch.components
  place : t.isDirectory (repo.refs.branchPath branch) = false

/-- A directory in the place of a branch can be seen, unless a length is in the way. -/
theorem IsAt.isDirectory_branchPath_iff (h : repo.IsAt r t)
    (hshort : (repo.refs.branchPath branch).text.utf8ByteSize < FileTree.pathLimit)
    (hnames : ∀ n ∈ branch.components, n.utf8ByteSize ≤ FileTree.nameLimit) :
    t.isDirectory (repo.refs.branchPath branch) = true ↔
      t.lookup (headsPlace r branch.components) = some .directory := by
  rw [FileTree.isDirectory_iff]
  constructor
  · rintro ⟨l, hl, hdir⟩
    rwa [h.eq_of_locate_branchPath hl] at hdir
  · intro hdir
    refine ⟨_, (FileTree.locate_extends_eq_ok_iff h.root (h.branchPath_extends branch)).mpr
      ⟨hshort, rfl, utf8ByteSize_le_of_mem_heads hnames, fun _ => ?_⟩, hdir⟩
    exact FileTree.directory_of_prefix hdir
      ((List.prefix_append_right_inj r).mpr (List.dropLast_prefix _))

/-- The place of a branch is clear if no attempt at another branch got in its way. -/
theorem Points.isClear (h : repo.Points r attempts t)
    (hlast : Pointing.last attempts branch.components = none)
    (hshort : (repo.refs.branchPath branch).text.utf8ByteSize < FileTree.pathLimit)
    (hnames : ∀ n ∈ branch.components, n.utf8ByteSize ≤ FileTree.nameLimit)
    (hclear : ∀ p ∈ attempts, ¬ p.Obstructs branch.components) :
    repo.IsClear attempts t branch where
  short := hshort
  way := Pointing.not_prefix_of_not_obstructs hlast hclear
  place := by
    rw [Bool.eq_false_iff, ne_eq, h.isDirectory_branchPath_iff hshort hnames,
      h.lookup_eq_none hlast hclear]
    exact nofun

/-- In a clear place, nothing is found. -/
theorem Points.readFile_of_isClear (h : repo.Points r attempts t)
    (hheads : t.lookup (headsPlace r []) = some .directory)
    (hlast : Pointing.last attempts branch.components = none)
    (hnames : ∀ n ∈ branch.components, n.utf8ByteSize ≤ FileTree.nameLimit)
    (hclear : repo.IsClear attempts t branch) :
    t.readFile (repo.refs.branchPath branch) = .error .notFound := by
  have hway : t.Unblocked r (repo.refs.branchPath branch)
      ([".git", "refs", "heads"] ++ branch.components) :=
    ⟨hclear.short, utf8ByteSize_le_of_mem_heads hnames, fun front content hfront =>
      h.lookup_ne_file hheads hclear.way hfront content⟩
  apply FileTree.readFile_extends_eq_notFound h.root (h.branchPath_extends branch) hway
  cases hnode : t.lookup (r ++ ([".git", "refs", "heads"] ++ branch.components)) with
  | none => rfl
  | some node =>
    cases node with
    | file content =>
      obtain ⟨id, hid, -⟩ := (h.file _ _ branch.components_ne_nil).mp hnode
      rw [hid] at hlast
      cases hlast
    | directory =>
      have hdir := (h.isDirectory_branchPath_iff hclear.short hnames).mpr hnode
      rw [hclear.place] at hdir
      cases hdir

/-- So nothing is found of a branch that no attempt got in the way of. -/
theorem Points.readFile_eq_notFound (h : repo.Points r attempts t)
    (hheads : t.lookup (headsPlace r []) = some .directory)
    (hshort : (repo.refs.branchPath branch).text.utf8ByteSize < FileTree.pathLimit)
    (hnames : ∀ n ∈ branch.components, n.utf8ByteSize ≤ FileTree.nameLimit)
    (hlast : Pointing.last attempts branch.components = none)
    (hclear : ∀ p ∈ attempts, ¬ p.Obstructs branch.components) :
    t.readFile (repo.refs.branchPath branch) = .error .notFound :=
  h.readFile_of_isClear hheads hlast hnames (h.isClear hlast hshort hnames hclear)

end Repository

end ObjectStore
