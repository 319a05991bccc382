import ObjectStore.Proofs.CleanFailure
import ObjectStore.Proofs.FileTree.Success

/-!
# Creating a repository

Whoever creates a repository may find anything where it should be: nothing at all, some of its
directories, a `HEAD` that an interrupted writer left empty, staged files of others, a file where a
directory belongs. `Repository.create_outcome` says what comes of it in any tree and for any number
that is drawn.

* If it succeeds, `Repository.Created` holds of the trees before and after it: the directories are
  there, `HEAD` was written if it was missing or empty, no other file has changed, and creating the
  repository again changes nothing, whatever the default branch and the number that is drawn then.
* If it fails, no file has changed and none was added.

The second part is `create_failsCleanly`. For the first, `exists_framed_of_create` takes a creation
that succeeded apart, and `IsReady` is what it leaves: everything that creating looks for. So there
is nothing to do in such a tree but to stage a `HEAD` that is not needed. Creating again succeeds if
the file system can hold that one (`IsReady.create`), and is refused otherwise
(`IsReady.create_long`).

A `HEAD` that was missing is written if the root is a directory, or straight down from one
(`IsRooted`). The path of a missing root may also take a step up, and then making the root can make
a directory where `HEAD` belongs. `create_exceptions` has an example of that, and one of a number
that is too long.
-/

namespace ObjectStore

namespace FileTree

variable {t t' : FileTree} {l : Location} {p : Path} {content : Bytes}

/-! ## What is not written over -/

/-- Something is there, and it is not an empty file. -/
def IsFull (t : FileTree) (p : Path) : Prop :=
  ∃ l node, t.locate p = .ok l ∧ t.lookup l = some node ∧ node ≠ .file []

/-- What the program looks at: something is there, and it is not taken for an empty file. -/
theorem isFull_iff : t.IsFull p ↔ t.isPresent p = true ∧ t.isEmptyFile p = false := by
  rw [← Bool.not_eq_true, isPresent_iff, isEmptyFile_iff, readFile_eq_ok_iff]
  constructor
  · rintro ⟨l, node, hl, hnode, hne⟩
    refine ⟨⟨l, node, hl, hnode⟩, ?_⟩
    rintro ⟨m, hm, hempty⟩
    obtain rfl := Except.ok.inj (hl.symm.trans hm)
    exact hne (Option.some.inj (hnode.symm.trans hempty))
  · rintro ⟨⟨l, node, hl, hnode⟩, hno⟩
    refine ⟨l, node, hl, hnode, ?_⟩
    rintro rfl
    exact hno ⟨l, hl, hnode⟩

/-- A file that holds something is full. -/
theorem isFull_of_readFile (h : t.readFile p = .ok content) (hne : content ≠ []) : t.IsFull p := by
  obtain ⟨l, hl, hfile⟩ := readFile_eq_ok_iff.mp h
  exact ⟨l, _, hl, hfile, fun hnil => hne (Node.file.inj hnil)⟩

/-- What is there is still there beside a staged file. -/
theorem IsStaged.isFull {staged : Path} (h : IsStaged staged content t t') (hfull : t.IsFull p) :
    t'.IsFull p := by
  obtain ⟨l, node, hl, hnode, hne⟩ := hfull
  refine ⟨l, node, h.locate_iff.mpr hl, ?_, hne⟩
  obtain ⟨k, -, hnone, rfl⟩ := h
  rwa [lookup_put_of_ne]
  rintro rfl
  rw [hnone] at hnode
  cases hnode

end FileTree

namespace Repository

variable {repo : Repository} {t t' made : FileTree} {g r : Location}

/-- A `HEAD` that is full is left as it is. -/
theorem installHead_of_isFull {staged head : Path} {content : Bytes}
    (h : FileTree.IsStaged staged content t t') (hfull : t.IsFull head) :
    installHead staged head t' = (.ok (), t) := by
  obtain ⟨hpresent, hempty⟩ := FileTree.isFull_iff.mp (h.isFull hfull)
  obtain ⟨l, node, hl, hnode⟩ := FileTree.isPresent_iff.mp hpresent
  have hlink : FileTree.link staged head t' = (.error .alreadyExists, t') := by
    simp only [FileTree.link, h.readFile, FileTree.createFile, hl, hnode]
  unfold installHead
  simp only [hlink, hempty, h.unlink]
  rfl

/-! ## Creating again -/

/-- All that creating the repository looks for is there, with the git directory at `g`. -/
structure IsReady (repo : Repository) (t : FileTree) (g : Location) : Prop where
  git : t.locate repo.gitPath = .ok g
  directory : t.lookup g = some .directory
  objects : t.isDirectory (repo.layout.objectsPath repo.root) = true
  heads : t.isDirectory (repo.layout.headsPath repo.root) = true
  head : t.IsFull repo.headPath

/-- The number that a staged `HEAD` gets. -/
def headNumber (repo : Repository) (t : FileTree) (draw : UInt32) : Nat :=
  t.freshNumber repo.gitPath "tmp-head" draw

/-- The file system can hold the staged `HEAD` for that draw. -/
def CanStageHead (repo : Repository) (t : FileTree) (draw : UInt32) : Prop :=
  FileTree.IsStageable repo.gitPath "tmp-head" (repo.headNumber t draw)

/-- The same repository with another default branch. -/
def withDefault (repo : Repository) (branch : BranchName) : Repository :=
  { repo with layout := { repo.layout with defaultBranch := branch } }

namespace IsReady

variable (h : repo.IsReady t g)

include h

/-- The default branch makes no difference to what is there. -/
theorem withDefault (branch : BranchName) : (repo.withDefault branch).IsReady t g :=
  ⟨h.git, h.directory, h.objects, h.heads, h.head⟩

/-- Where all is there, creating only stages a `HEAD`. -/
theorem create_eq (draw : UInt32) :
    repo.create draw t = (FileTree.stage draw repo.gitPath "tmp-head"
      (Bytes.ofString (Layout.symbolic repo.layout.defaultBranch)) >>= fun staged =>
        installHead staged repo.headPath) t := by
  have hobjects : FileTree.needDirectory (repo.layout.objectsPath repo.root) t = (.ok (), t) :=
    Change.mapError_of_ok (FileTree.createDirectories_of_isDirectory h.objects)
  have hheads : FileTree.needDirectory (repo.layout.headsPath repo.root) t = (.ok (), t) :=
    Change.mapError_of_ok (FileTree.createDirectories_of_isDirectory h.heads)
  unfold Repository.create
  rw [Change.bind_of_ok hobjects, Change.bind_of_ok hheads]

/-- It changes nothing, and it succeeds if the file system can hold the staged `HEAD`. -/
theorem create (draw : UInt32) (hfits : repo.CanStageHead t draw) :
    repo.create draw t = (.ok (), t) := by
  obtain ⟨staged, hstaged, hstage⟩ := FileTree.stage_of_isStageable h.git h.directory (by decide)
    (by decide) hfits (Bytes.ofString (Layout.symbolic repo.layout.defaultBranch))
  rw [h.create_eq draw, Change.bind_of_ok hstage]
  exact installHead_of_isFull hstaged h.head

/-- Otherwise the path of the staged `HEAD` is refused, and nothing is changed either. -/
theorem create_long (draw : UInt32) (hlong : ¬ repo.CanStageHead t draw) :
    repo.create draw t = (.error (.io (FileTree.stagedPath repo.gitPath "tmp-head"
      (repo.headNumber t draw)) .nameTooLong), t) := by
  rw [h.create_eq draw]
  exact Change.bind_of_error (FileTree.stage_of_not_isStageable h.git h.directory (by decide)
    (by decide) hlong _)

end IsReady

/-! ## A creation that succeeds -/

/-- The place of `HEAD` in the git directory at `g`. -/
def headIn (g : Location) : Location := g ++ [Layout.headFile]

/-- `HEAD` lies in the git directory. -/
theorem headPath_extends_gitPath (h : repo.gitPath.text ≠ "") :
    repo.headPath.Extends repo.gitPath [Layout.headFile] := by
  have hname : Path.IsName Layout.headFile := by decide
  exact Path.extends_join_name h hname

/-- `HEAD` has another place than the file that it is staged as. -/
theorem headIn_ne_staged (g : Location) (n : Nat) :
    headIn g ≠ g ++ ["tmp-head" ++ "-" ++ Numeral.decimal n] := by
  intro heq
  have hname : Layout.headFile = "tmp-head" ++ "-" ++ Numeral.decimal n := by
    simpa [headIn] using heq
  have hfirst := congrArg (·.toList.head?) hname
  simp [Layout.headFile] at hfirst

/-- What the directories of a repository are made of: `made` is the tree that has them, with the
git directory at `g`. -/
structure Framed (repo : Repository) (t made : FileTree) (g : Location) : Prop where
  frame : ∃ first,
    FileTree.createDirectories (repo.layout.objectsPath repo.root) t = (.ok (), first) ∧
      FileTree.createDirectories (repo.layout.headsPath repo.root) first = (.ok (), made)
  git : made.locate repo.gitPath = .ok g
  directory : made.lookup g = some .directory

/-- A creation that succeeds makes the directories, and then finds a `HEAD` that it leaves or writes
one where nothing or an empty file is. -/
theorem exists_framed_of_create {draw : UInt32} (htext : repo.gitPath.text ≠ "")
    (h : repo.create draw t = (.ok (), t')) :
    ∃ made g, repo.Framed t made g ∧
      ((t' = made ∧ made.IsFull repo.headPath) ∨
        made.locate repo.headPath = .ok (headIn g) ∧
          (made.lookup (headIn g) = none ∨ made.lookup (headIn g) = some (.file [])) ∧
          t' = made.put (headIn g)
            (.file (Bytes.ofString (Layout.symbolic repo.layout.defaultBranch)))) := by
  obtain ⟨first, hobjects, h⟩ := FileTree.createDirectories_of_bind_eq_ok h
  obtain ⟨made, hheads, h⟩ := FileTree.createDirectories_of_bind_eq_ok h
  rcases FileTree.stage_cases draw repo.gitPath "tmp-head"
    (Bytes.ofString (Layout.symbolic repo.layout.defaultBranch)) made with
      ⟨err, hfail⟩ | ⟨n, staged, hstaged, hstage⟩
  · have := (Change.bind_of_error hfail).symm.trans h
    cases this
  have hstem : Path.IsName "tmp-head" := by decide
  have hextends := FileTree.stagedPath_extends htext hstem (by decide) n
  obtain ⟨k, hk, hnone, hput⟩ := id hstaged
  obtain ⟨g, hg, hdirectory⟩ :=
    FileTree.locate_of_extends hk hextends (List.cons_ne_nil _ _) htext
  have hplace : ∀ l, made.locate repo.headPath = .ok l → l = headIn g := fun l hl =>
    ((FileTree.locate_extends_eq_ok_iff hg (headPath_extends_gitPath htext)).mp hl).2.1
  refine ⟨made, g, ⟨⟨first, hobjects, hheads⟩, hg, hdirectory⟩, ?_⟩
  have hinstall := (Change.bind_of_ok hstage).symm.trans h
  rcases installHead_cases hstaged (ofString_symbolic_ne_nil repo.layout.defaultBranch)
    repo.headPath with ⟨err, hfail⟩ | ⟨hpresent, hempty, hkeep⟩ | ⟨l, hl, hfree, hput⟩
  · have := hfail.symm.trans hinstall
    cases this
  · obtain ⟨-, rfl⟩ := Prod.mk.inj (hkeep.symm.trans hinstall)
    refine Or.inl ⟨rfl, ?_⟩
    -- The staged file is not taken for `HEAD`, so that one is there without it.
    obtain ⟨l, node, hl, hnode, hne⟩ := FileTree.isFull_iff.mpr ⟨hpresent, hempty⟩
    have hl := hstaged.locate_iff.mp hl
    refine ⟨l, node, hl, ?_, hne⟩
    rw [hput, FileTree.lookup_put_of_ne] at hnode
    · exact hnode
    · obtain ⟨-, rfl, -⟩ := (FileTree.locate_extends_eq_ok_iff hg hextends).mp hk
      rw [hplace l hl]
      exact headIn_ne_staged g n
  · obtain ⟨-, rfl⟩ := Prod.mk.inj (hput.symm.trans hinstall)
    obtain rfl := hplace l hl
    exact Or.inr ⟨hl, hfree, rfl⟩

namespace Framed

variable (h : repo.Framed t made g)

include h

/-- Making the directories makes nothing else. -/
theorem grows : FileTree.Grows (fun _ => True) FileTree.noFile t made := by
  obtain ⟨first, hobjects, hheads⟩ := h.frame
  exact (FileTree.createDirectories_grows hobjects).1.trans
    (FileTree.createDirectories_grows hheads).1

/-- The directory of the objects is there. -/
theorem objects : made.isDirectory (repo.layout.objectsPath repo.root) = true := by
  obtain ⟨first, hobjects, hheads⟩ := h.frame
  exact (FileTree.createDirectories_grows hheads).1.isDirectory
    ((FileTree.createDirectories_grows hobjects).2 rfl)

/-- The directory of the branches is there. -/
theorem heads : made.isDirectory (repo.layout.headsPath repo.root) = true := by
  obtain ⟨first, -, hheads⟩ := h.frame
  exact (FileTree.createDirectories_grows hheads).2 rfl

/-- Below a directory that the git directory lies straight down from, none is made in the place of
`HEAD`. -/
theorem lookup_headIn {base : Path} {names : List String} (hbase : t.locate base = .ok r)
    (hr : t.lookup r = some .directory) (hextends : repo.gitPath.Extends base names) :
    made.lookup (r ++ (names ++ [Layout.headFile]))
      = t.lookup (r ++ (names ++ [Layout.headFile])) := by
  obtain ⟨first, hobjects, hheads⟩ := h.frame
  have hnot : ∀ more : List String, more.head? ≠ some Layout.headFile →
      ¬ r ++ (names ++ [Layout.headFile]) <+: r ++ (names ++ more) := by
    intro more hmore hprefix
    have hshort := (List.prefix_append_right_inj names).mp
      ((List.prefix_append_right_inj r).mp hprefix)
    obtain ⟨rest, rfl⟩ := hshort
    exact hmore rfl
  have hobjectsPath : (repo.layout.objectsPath repo.root).Extends base (names ++ ["objects"]) :=
    hextends.join "objects" (by decide)
  have hheadsPath :
      (repo.layout.headsPath repo.root).Extends base (names ++ ["refs", "heads"]) := by
    have hjoin := (hextends.join "refs" (by decide)).join "heads" (by decide)
    rwa [List.append_assoc] at hjoin
  obtain ⟨hfirst, -⟩ :=
    FileTree.createDirectories_extends hobjects hbase hr hobjectsPath (by simp)
  obtain ⟨hsecond, -⟩ := FileTree.createDirectories_extends hheads (hfirst.locate hbase)
    (hfirst.directory hr) hheadsPath (by simp)
  rw [hsecond.lookup_eq (hnot _ (by decide)) fun _ => id,
    hfirst.lookup_eq (hnot _ (by decide)) fun _ => id]

end Framed

/-! ## The root -/

/-- The root is a directory, or lies straight down from one. -/
def IsRooted (repo : Repository) (t : FileTree) : Prop :=
  ∃ base r, t.locate base = .ok r ∧ t.lookup r = some .directory ∧
    (repo.root = base ∨ ∃ names, repo.root.Extends base names)

/-- If the root is a directory or straight down from one, so is the git directory. -/
theorem IsRooted.exists_extends (h : repo.IsRooted t)
    (hgit : repo.layout.gitDirectory = ⟨".git"⟩) :
    ∃ base r names, t.locate base = .ok r ∧ t.lookup r = some .directory ∧
      repo.gitPath.Extends base names := by
  have hname : Path.IsName ".git" := by decide
  have hpath : repo.gitPath = repo.root.join ⟨".git"⟩ := by
    rw [gitPath, Layout.gitPath, hgit]
  obtain ⟨base, r, hbase, hr, hroot | ⟨names, hroot⟩⟩ := h
  · subst hroot
    have htext := (FileTree.locate_eq_ok_iff.mp hbase).2.1
    exact ⟨_, r, _, hbase, hr, hpath ▸ Path.extends_join_name htext hname⟩
  · exact ⟨base, r, _, hbase, hr, hpath ▸ hroot.join ".git" hname⟩

/-- If the root is a directory or straight down from one, a `HEAD` that is there once the
directories are made was there before. -/
theorem Framed.isPresent_headPath (h : repo.Framed t made g) (hrooted : repo.IsRooted t)
    (hgit : repo.layout.gitDirectory = ⟨".git"⟩) (hthere : made.isPresent repo.headPath = true) :
    t.isPresent repo.headPath = true := by
  obtain ⟨base, r, names, hbase, hr, hextends⟩ := hrooted.exists_extends hgit
  have hhead : repo.headPath.Extends base (names ++ [Layout.headFile]) :=
    hextends.join Layout.headFile (by decide)
  obtain ⟨l, node, hl, hnode⟩ := FileTree.isPresent_iff.mp hthere
  obtain ⟨hshort, rfl, hnames, -⟩ :=
    (FileTree.locate_extends_eq_ok_iff (h.grows.locate hbase) hhead).mp hl
  rw [h.lookup_headIn hbase hr hextends] at hnode
  have hparent := FileTree.lookup_dropLast (hnode ▸ Option.some_ne_none node)
  rw [List.dropLast_append_of_ne_nil (by simp)] at hparent
  have hplace := (FileTree.locate_extends_eq_ok_iff hbase hhead).mpr
    ⟨hshort, rfl, hnames, fun _ => hparent⟩
  exact FileTree.isPresent_iff.mpr ⟨_, node, hplace, hnode⟩

/-! ## What creating comes to -/

/-- What a creation that succeeds makes of a tree, with the git directory at `g`. -/
structure Created (repo : Repository) (g : Location) (t t' : FileTree) : Prop where
  git : t'.locate repo.gitPath = .ok g
  objects : t'.isDirectory (repo.layout.objectsPath repo.root) = true
  heads : t'.isDirectory (repo.layout.headsPath repo.root) = true
  /-- A `HEAD` that was missing or empty points at the default branch. -/
  head : t.isEmptyFile repo.headPath = true ∨ repo.IsRooted t ∧ t.isPresent repo.headPath = false →
    t'.readFile repo.headPath = .ok (Bytes.ofString (Layout.symbolic repo.layout.defaultBranch))
  directory : ∀ l, t.lookup l = some .directory → t'.lookup l = some .directory
  /-- Every other file holds what it held, and so does a `HEAD` that was not empty. -/
  kept : ∀ l content, t.lookup l = some (.file content) → (l = headIn g → content ≠ []) →
    t'.lookup l = some (.file content)
  /-- There is no other new file, so no staged one. -/
  added : ∀ l content, t'.lookup l = some (.file content) → l ≠ headIn g →
    t.lookup l = some (.file content)
  /-- Creating the repository again changes nothing, whatever the default branch, and succeeds if
  the file system can hold the staged `HEAD` for the number that is drawn then. -/
  again : ∀ branch draw, repo.CanStageHead t' draw →
    (repo.withDefault branch).create draw t' = (.ok (), t')
  /-- If it cannot, the path of that one is refused. -/
  again_long : ∀ branch draw, ¬ repo.CanStageHead t' draw →
    (repo.withDefault branch).create draw t' = (.error (.io (FileTree.stagedPath repo.gitPath
      "tmp-head" (repo.headNumber t' draw)) .nameTooLong), t')

/-- A `HEAD` that was left as it was. -/
theorem Framed.created (h : repo.Framed t made g) (hgit : repo.layout.gitDirectory = ⟨".git"⟩)
    (hfull : made.IsFull repo.headPath) : repo.Created g t made := by
  have hready : repo.IsReady made g := ⟨h.git, h.directory, h.objects, h.heads, hfull⟩
  obtain ⟨hpresent, hempty⟩ := FileTree.isFull_iff.mp hfull
  exact {
    git := h.git
    objects := h.objects
    heads := h.heads
    head := by
      rintro (hbefore | ⟨hrooted, habsent⟩)
      · obtain ⟨l, hl, hfile⟩ :=
          FileTree.readFile_eq_ok_iff.mp (FileTree.isEmptyFile_iff.mp hbefore)
        have hread := FileTree.readFile_eq_ok_iff.mpr
          ⟨l, h.grows.locate hl, (h.grows.sameFiles l []).mpr hfile⟩
        rw [FileTree.isEmptyFile_iff.mpr hread] at hempty
        cases hempty
      · rw [h.isPresent_headPath hrooted hgit hpresent] at habsent
        cases habsent
    directory := fun _ => h.grows.directory
    kept := fun l content hl _ => (h.grows.sameFiles l content).mpr hl
    added := fun l content hl _ => (h.grows.sameFiles l content).mp hl
    again := fun branch => (hready.withDefault branch).create
    again_long := fun branch => (hready.withDefault branch).create_long }

/-- A `HEAD` that was written where nothing or an empty file was. -/
theorem Framed.created_put {content : Bytes} (h : repo.Framed t made g)
    (hcontent : content = Bytes.ofString (Layout.symbolic repo.layout.defaultBranch))
    (hl : made.locate repo.headPath = .ok (headIn g))
    (hfree : made.lookup (headIn g) = none ∨ made.lookup (headIn g) = some (.file [])) :
    repo.Created g t (made.put (headIn g) (.file content)) := by
  have hdir : made.lookup (headIn g) ≠ some .directory := by
    rcases hfree with hfree | hfree <;> simp [hfree]
  have hrefl : made.Grows (fun _ => True) (FileTree.oneFile (headIn g) content) made := .refl made
  obtain ⟨hgrows, hread⟩ := hrefl.file_put hl hdir ⟨rfl, rfl⟩
  have hsame : ∀ l other, l ≠ headIn g →
      ((made.put (headIn g) (.file content)).lookup l = some (.file other) ↔
        t.lookup l = some (.file other)) := by
    intro l other hne
    rw [FileTree.lookup_put_of_ne hne]
    exact h.grows.sameFiles l other
  have hready : repo.IsReady (made.put (headIn g) (.file content)) g := {
    git := hgrows.locate h.git
    directory := hgrows.directory h.directory
    objects := hgrows.isDirectory h.objects
    heads := hgrows.isDirectory h.heads
    head := FileTree.isFull_of_readFile hread (hcontent ▸ ofString_symbolic_ne_nil _) }
  exact {
    git := hready.git
    objects := hready.objects
    heads := hready.heads
    head := fun _ => hcontent ▸ hread
    directory := fun _ hl => hgrows.directory (h.grows.directory hl)
    kept := by
      intro l other hfile hne
      by_cases hplace : l = headIn g
      · -- What `HEAD` held was nothing.
        have hmade := (h.grows.sameFiles l other).mpr hfile
        rw [hplace] at hmade
        rw [hmade] at hfree
        simp [hne hplace] at hfree
      · exact (hsame l other hplace).mpr hfile
    added := fun l other hfile hne => (hsame l other hne).mp hfile
    again := fun branch => (hready.withDefault branch).create
    again_long := fun branch => (hready.withDefault branch).create_long }

/-- Creating a repository makes of any tree what `Created` says, or fails and changes no file,
whatever number is drawn. -/
theorem create_outcome (hgit : repo.layout.gitDirectory = ⟨".git"⟩) (draw : UInt32)
    (t : FileTree) :
    (∀ t', repo.create draw t = (.ok (), t') → ∃ g, repo.Created g t t') ∧
      ∀ err t', repo.create draw t = (.error err, t') → t.SameFiles t' := by
  constructor
  · intro t' h
    have htext : repo.gitPath.text ≠ "" := by
      rw [gitPath, Layout.gitPath, hgit, Path.join_eq rfl]
      simp
    obtain ⟨made, g, hframed, ⟨rfl, hfull⟩ | ⟨hl, hfree, rfl⟩⟩ := exists_framed_of_create htext h
    · exact ⟨g, hframed.created hgit hfull⟩
    · exact ⟨g, hframed.created_put rfl hl hfree⟩
  · intro err t' h
    have hfiles := repo.create_failsCleanly draw t err (by rw [h])
    rwa [h] at hfiles

/-- A creation after one that was interrupted, with a staged file left and nothing in `HEAD`, and
one that cannot make its directories. -/
theorem create_outcome_interrupted :
    let repo : Repository := ⟨⟨"/"⟩, {}⟩
    let interrupted := ((FileTree.empty.put [".git"] .directory).put [".git", "HEAD"]
      (.file [])).put [".git", "tmp-head-7"] (.file (Bytes.ofString "ref: "))
    let blocked := FileTree.empty.put [".git"] (.file [])
    repo.layout.gitDirectory = ⟨".git"⟩ ∧
      (∃ t', repo.create 7 interrupted = (.ok (), t') ∧ ∃ g, repo.Created g interrupted t') ∧
      ∃ t', repo.create 7 blocked = (.error (.io ⟨"/.git/objects"⟩ .notADirectory), t') ∧
        blocked.SameFiles t' := by
  intro repo interrupted blocked
  obtain ⟨hok, herr⟩ : (repo.create 7 interrupted).1 = .ok () ∧
      (repo.create 7 blocked).1 = .error (.io ⟨"/.git/objects"⟩ .notADirectory) := by
    decide +kernel
  have hcreated := (create_outcome rfl 7 interrupted).1 _ (Change.eq_of_fst hok)
  have hfiles := (create_outcome rfl 7 blocked).2 _ _ (Change.eq_of_fst herr)
  exact ⟨rfl, ⟨_, Change.eq_of_fst hok, hcreated⟩, _, Change.eq_of_fst herr, hfiles⟩

/-! ## Roots that are too deep, or not straight down -/

/-- The paths of a repository in `.git`, as what is joined to its root. -/
theorem paths_eq (hgit : repo.layout.gitDirectory = ⟨".git"⟩) :
    repo.gitPath = repo.root.join ⟨".git"⟩ ∧
      repo.layout.objectsPath repo.root = repo.root.join ⟨".git/objects"⟩ ∧
      repo.layout.headsPath repo.root = repo.root.join ⟨".git/refs/heads"⟩ ∧
      repo.headPath = repo.root.join ⟨".git/HEAD"⟩ := by
  have hpath : repo.gitPath = repo.root.join ⟨".git"⟩ := by
    rw [gitPath, Layout.gitPath, hgit]
  have hrefs : repo.gitPath.join ⟨"refs"⟩ = repo.root.join ⟨".git/refs"⟩ := by
    rw [hpath]
    exact Path.join_join rfl (by decide) rfl
  refine ⟨hpath, ?_, ?_, ?_⟩
  · rw [Layout.objectsPath, ← gitPath, hpath]
    exact Path.join_join rfl (by decide) rfl
  · rw [Layout.headsPath, Layout.refsPath, ← gitPath, hrefs]
    exact Path.join_join rfl (by decide) rfl
  · rw [headPath, Layout.headPath, ← gitPath, hpath]
    exact Path.join_join rfl (by decide) rfl

/-- What stands below the root is found by a short relative path, if the path of the root leaves
room for it. -/
theorem IsAt.locate_of_join {p q : Path} {names : List String} {node : Node} (h : repo.IsAt r t)
    (hsize : repo.root.text.utf8ByteSize + 16 < FileTree.pathLimit) (hp : p = repo.root.join q)
    (hrelative : q.isAbsolute = false) (hq : q.text.utf8ByteSize ≤ 15)
    (hextends : p.Extends repo.root names) (hne : names ≠ [])
    (hnames : ∀ n ∈ names, n.utf8ByteSize ≤ FileTree.nameLimit)
    (hnode : t.lookup (r ++ names) = some node) : t.locate p = .ok (r ++ names) := by
  have hparent := FileTree.lookup_dropLast (hnode ▸ Option.some_ne_none node)
  rw [List.dropLast_append_of_ne_nil hne] at hparent
  have hshort : p.text.utf8ByteSize < FileTree.pathLimit := by
    have hseparator := repo.root.utf8ByteSize_separator_le
    rw [hp, Path.join_eq hrelative, String.utf8ByteSize_append, String.utf8ByteSize_append]
    omega
  exact (FileTree.locate_extends_eq_ok_iff h.root hextends).mpr
    ⟨hshort, rfl, hnames, fun _ => hparent⟩

/-- A repository that has its directories and a `HEAD` is ready, if the path of its root leaves
room for theirs. -/
theorem IsAt.isReady (h : repo.IsAt r t)
    (hsize : repo.root.text.utf8ByteSize + 16 < FileTree.pathLimit)
    (hobjects : t.lookup (r ++ [".git", "objects"]) = some .directory)
    (hheads : t.lookup (r ++ [".git", "refs", "heads"]) = some .directory) {node : Node}
    (hhead : t.lookup (r ++ [".git", "HEAD"]) = some node) (hne : node ≠ .file []) :
    repo.IsReady t (r ++ [".git"]) := by
  obtain ⟨hgitPath, hobjectsPath, hheadsPath, hheadPath⟩ := paths_eq h.gitDirectory
  have hgit : t.lookup (r ++ [".git"]) = some .directory :=
    FileTree.directory_of_prefix hobjects ((List.prefix_append_right_inj r).mpr ⟨["objects"], rfl⟩)
  exact {
    git := h.locate_of_join hsize hgitPath rfl (by decide) h.gitPath_extends (by decide)
      (by decide) hgit
    directory := hgit
    objects := FileTree.isDirectory_iff.mpr ⟨_, h.locate_of_join hsize hobjectsPath rfl (by decide)
      h.objects_extends (by decide) (by decide) hobjects, hobjects⟩
    heads := FileTree.isDirectory_iff.mpr ⟨_, h.locate_of_join hsize hheadsPath rfl (by decide)
      h.headsPath_extends (by decide) (by decide) hheads, hheads⟩
    head := ⟨_, node, h.locate_of_join hsize hheadPath rfl (by decide) h.headPath_extends
      (by decide) (by decide) hhead, hhead, hne⟩ }

/-- Creating a repository again may fail, for the number that is drawn: one of one digit fits and
one of ten does not. And a `HEAD` that was missing is not written if the path of the root steps up
from it, as making the root makes a directory of it. -/
theorem create_exceptions :
    let deep : Repository := ⟨⟨String.ofList (List.replicate 4072 '/')⟩, {}⟩
    let t := ((⟨⟨"/"⟩, {}⟩ : Repository).create 0 FileTree.empty).2
    let stepping : Repository := ⟨⟨"/.git/HEAD/../.."⟩, {}⟩
    (deep.create 0 t = (.ok (), t) ∧ (deep.create 4000000000 t).1 ≠ .ok ()) ∧
      FileTree.empty.isPresent stepping.headPath = false ∧
      ∃ t', stepping.create 0 FileTree.empty = (.ok (), t') ∧
        t'.readFile stepping.headPath
          ≠ .ok (Bytes.ofString (Layout.symbolic stepping.layout.defaultBranch)) := by
  intro deep t stepping
  have hat : deep.IsAt [] t := ⟨rfl, FileTree.locate_slashes (by decide) t, t.lookup_nil⟩
  have hroot : deep.root.text.utf8ByteSize = 4072 := utf8ByteSize_slashes 4072
  obtain ⟨hobjects, hheads, hhead⟩ : t.lookup [".git", "objects"] = some .directory ∧
      t.lookup [".git", "refs", "heads"] = some .directory ∧
      t.lookup [".git", "HEAD"] = some (.file (Bytes.ofString "ref: refs/heads/master")) := by
    decide +kernel
  have hready : deep.IsReady t [".git"] :=
    hat.isReady (by rw [hroot]; decide) hobjects hheads hhead (by decide)
  obtain ⟨hgitPath, -⟩ := paths_eq hat.gitDirectory
  have hsize : ∀ n, (FileTree.stagedPath deep.gitPath "tmp-head" n).text.utf8ByteSize
      = 4077 + ("tmp-head" ++ "-" ++ Numeral.decimal n).utf8ByteSize := by
    intro n
    have hseparator : deep.root.separator = "" := Path.separator_slashes 4071
    rw [FileTree.utf8ByteSize_stagedPath (by decide) (by decide), hgitPath,
      Path.separator_join rfl (by decide), Path.join_eq rfl, hseparator, String.append_empty,
      String.utf8ByteSize_append, hroot]
    rfl
  have hnumber : ∀ draw : UInt32,
      t.lookup [".git", "tmp-head" ++ "-" ++ Numeral.decimal draw.toNat] = none →
      deep.headNumber t draw = draw.toNat := fun draw hfree =>
    FileTree.freshNumber_of_lookup_eq_none hready.git hready.directory (by decide) (by decide) hfree
  have hshort : deep.CanStageHead t 0 := by
    rw [CanStageHead, hnumber 0 (by decide +kernel)]
    exact ⟨by rw [hsize]; decide +kernel, by decide +kernel⟩
  have hlong : ¬ deep.CanStageHead t 4000000000 := by
    rw [CanStageHead, hnumber 4000000000 (by decide +kernel)]
    intro hfits
    have hpath := hfits.path
    rw [hsize] at hpath
    exact absurd hpath (by decide +kernel)
  refine ⟨⟨hready.create 0 hshort, ?_⟩, by decide +kernel, ?_⟩
  · rw [hready.create_long 4000000000 hlong]
    exact nofun
  · exact ⟨_, Change.eq_of_fst (by decide +kernel), by decide +kernel⟩

end Repository

end ObjectStore
