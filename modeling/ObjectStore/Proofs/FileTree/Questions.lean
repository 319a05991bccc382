import ObjectStore.Proofs.FileTree.Walk

/-!
# What the questions answer

Each question about a path asks where the path leads and what stands there. The lemmas of this
module say that for every question, so that proofs about their answers are proofs about the view of
the tree.
-/

namespace ObjectStore.FileTree

variable {t : FileTree} {l : Location} {p : Path} {content : Bytes}

/-- Where a path leads nowhere, nothing is found. -/
theorem nodeAt_of_locate_error {fault : IoFault} (h : t.locate p = .error fault) :
    t.nodeAt p = .error fault := by
  rw [nodeAt, nodeFrom, ← locate, h]
  rfl

/-- Where it leads somewhere, it is what the view shows. -/
theorem nodeAt_of_locate (h : t.locate p = .ok l) :
    t.nodeAt p = match t.lookup l with
      | some node => .ok node
      | none => .error .notFound := by
  rw [nodeAt, nodeFrom, ← locate, h]
  rfl

/-- The reasons for which nothing is found. -/
theorem nodeAt_error_cases {fault : IoFault} (h : t.nodeAt p = .error fault) :
    fault = .nulInPath ∨ fault = .notFound ∨ fault = .notADirectory ∨ fault = .nameTooLong := by
  cases hp : t.locate p with
  | error err =>
    rw [nodeAt_of_locate_error hp] at h
    cases h
    exact locate_error_cases hp
  | ok l =>
    rw [nodeAt_of_locate hp] at h
    cases hl : t.lookup l with
    | none =>
      rw [hl] at h
      cases h
      exact Or.inr (Or.inl rfl)
    | some node =>
      rw [hl] at h
      cases h

/-- What stands where a path leads. -/
theorem nodeAt_eq_ok_iff {node : Node} :
    t.nodeAt p = .ok node ↔ ∃ l, t.locate p = .ok l ∧ t.lookup l = some node := by
  cases hp : t.locate p with
  | error fault => simp [nodeAt_of_locate_error hp]
  | ok l =>
    rw [nodeAt_of_locate hp]
    cases hl : t.lookup l <;> simp [hl]

/-- Something is there if the path leads to a node. -/
theorem isPresent_iff :
    t.isPresent p = true ↔ ∃ l node, t.locate p = .ok l ∧ t.lookup l = some node := by
  have hpresent : t.isPresent p = true ↔ ∃ node, t.nodeAt p = .ok node := by
    rw [isPresent]
    cases t.nodeAt p <;> simp [Except.toBool]
  simp only [hpresent, nodeAt_eq_ok_iff]
  exact exists_comm

/-- A directory is there if it leads to one. -/
theorem isDirectory_iff :
    t.isDirectory p = true ↔ ∃ l, t.locate p = .ok l ∧ t.lookup l = some .directory := by
  rw [← nodeAt_eq_ok_iff, isDirectory]
  split <;> simp_all

/-- A file is there if it leads to one. -/
theorem isFile_iff :
    t.isFile p = true ↔ ∃ l content, t.locate p = .ok l ∧ t.lookup l = some (.file content) := by
  have hfile : t.isFile p = true ↔ ∃ content, t.nodeAt p = .ok (.file content) := by
    rw [isFile]
    split <;> simp_all
  simp only [hfile, nodeAt_eq_ok_iff]
  exact exists_comm

/-- What is read from a path is the content of the file it leads to. -/
theorem readFile_eq_ok_iff :
    t.readFile p = .ok content ↔ ∃ l, t.locate p = .ok l ∧ t.lookup l = some (.file content) := by
  rw [← nodeAt_eq_ok_iff, readFile, readFileFrom, bind_eq_ok_iff, nodeAt]
  constructor
  · rintro ⟨node, hnode, hread⟩
    cases node with
    | directory => cases hread
    | file => cases hread; exact hnode
  · exact fun hnode => ⟨_, hnode, rfl⟩

/-- Whatever can be read is there. -/
theorem isPresent_of_readFile (h : t.readFile p = .ok content) : t.isPresent p = true := by
  obtain ⟨l, hl, hlookup⟩ := readFile_eq_ok_iff.mp h
  exact isPresent_iff.mpr ⟨l, _, hl, hlookup⟩

/-- A file is whatever can be read. -/
theorem isFile_iff_readFile : t.isFile p = true ↔ ∃ content, t.readFile p = .ok content := by
  simp only [isFile_iff, readFile_eq_ok_iff]
  exact exists_comm

/-- What is read as text is the text whose UTF-8 form the file holds. -/
theorem readText_of_readFile {text : String} (h : t.readFile p = .ok (Bytes.ofString text)) :
    t.readText p = .ok text := by
  rw [readText, h, ok_bind, Bytes.toText?_ofString]

/-- A file that cannot be read has no text. -/
theorem readText_of_error {fault : IoFault} (h : t.readFile p = .error fault) :
    t.readText p = .error fault := by
  rw [readText, h, error_bind]

/-- Something is there if it is text, a directory or a file that is not text. -/
theorem isPresent_iff_readText : t.isPresent p = true ↔ (∃ text, t.readText p = .ok text) ∨
    t.readText p = .error .isADirectory ∨ t.readText p = .error .notUtf8 := by
  rw [isPresent, readText, readFile, readFileFrom, ← nodeAt]
  cases hnode : t.nodeAt p with
  | ok node =>
    cases node with
    | directory => simp [Except.toBool]
    | file content => cases hcontent : Bytes.toText? content <;> simp [Except.toBool, hcontent]
  | error fault =>
    obtain rfl | rfl | rfl | rfl := nodeAt_error_cases hnode <;> simp [Except.toBool]

/-- What is read depends only on where a path leads. -/
theorem readText_of_locate_eq {q : Path} (h : t.locate p = t.locate q) :
    t.readText p = t.readText q := by
  rw [readText, readText, readFile, readFile, readFileFrom, readFileFrom, nodeFrom, nodeFrom,
    ← locate, ← locate, h]

/-- An empty file is one that nothing is read from. -/
theorem isEmptyFile_iff : t.isEmptyFile p = true ↔ t.readFile p = .ok [] := by
  rw [isEmptyFile]
  split <;> simp_all

/-- What is read from a path that continues another one is the file straight down from where that
one leads, if no length is in the way. -/
theorem readFile_extends_iff {base : Path} {r : Location} {names : List String}
    (hbase : t.locate base = .ok r) (h : p.Extends base names) :
    t.readFile p = .ok content ↔
      p.text.utf8ByteSize < pathLimit ∧ (∀ n ∈ names, n.utf8ByteSize ≤ nameLimit) ∧
        t.lookup (r ++ names) = some (.file content) := by
  rw [readFile_eq_ok_iff]
  constructor
  · rintro ⟨l, hl, hfile⟩
    obtain ⟨hshort, rfl, hnames, -⟩ := (locate_extends_eq_ok_iff hbase h).mp hl
    exact ⟨hshort, hnames, hfile⟩
  · rintro ⟨hshort, hnames, hfile⟩
    refine ⟨_, (locate_extends_eq_ok_iff hbase h).mpr ⟨hshort, rfl, hnames, fun hne => ?_⟩, hfile⟩
    have hparent := @lookup_dropLast t (r ++ names) (by simp [hfile])
    rwa [List.dropLast_append_of_ne_nil hne] at hparent

/-! ## What a directory holds -/

/-- A name is in a directory if something is behind it. -/
theorem mem_names_iff {n : String} : n ∈ t.names l ↔ t.lookup (l ++ [n]) ≠ none := by
  have hne : l ++ [n] ≠ [] := by simp
  rw [names, List.mem_filterMap, Option.ne_none_iff_exists']
  constructor
  · rintro ⟨e, he, hname⟩
    split_ifs at hname with hparent
    obtain ⟨front, hfront⟩ := List.getLast?_eq_some_iff.mp hname
    rw [hfront, List.dropLast_concat] at hparent
    subst hparent
    exact ⟨e.2, (lookup_eq_some_iff hne).mpr (hfront ▸ he)⟩
  · rintro ⟨node, hnode⟩
    refine ⟨(l ++ [n], node), (lookup_eq_some_iff hne).mp hnode, ?_⟩
    rw [List.dropLast_concat, if_pos rfl, List.getLast?_concat]

/-- No name is listed twice. -/
theorem nodup_names (t : FileTree) (l : Location) : (t.names l).Nodup := by
  have hplaces : t.entries.Pairwise fun e e' => e.1 ≠ e'.1 := List.pairwise_map.mp t.nodup
  rw [names, List.Nodup, List.pairwise_filterMap]
  refine hplaces.imp fun {e e'} hne n hn n' hn' hsame => hne ?_
  split_ifs at hn hn' with hl hl'
  obtain ⟨front, hfront⟩ := List.getLast?_eq_some_iff.mp hn
  obtain ⟨front', hfront'⟩ := List.getLast?_eq_some_iff.mp hn'
  rw [hfront, List.dropLast_concat] at hl
  rw [hfront', List.dropLast_concat] at hl'
  rw [hfront, hfront', hl, hl', hsame]

/-- A name is listed if the path leads to a directory that has it. -/
theorem mem_namesAt_iff {n : String} : n ∈ t.namesAt p ↔
    ∃ l, t.locate p = .ok l ∧ t.lookup l = some .directory ∧ t.lookup (l ++ [n]) ≠ none := by
  unfold namesAt
  cases t.locate p with
  | error fault => simp
  | ok l =>
    simp only [Except.ok.injEq, exists_eq_left']
    split_ifs with hdir
    · rw [mem_names_iff, and_iff_right hdir]
    · exact iff_of_false List.not_mem_nil fun h => hdir h.1

/-- No name is listed twice. -/
theorem nodup_namesAt (t : FileTree) (p : Path) : (t.namesAt p).Nodup := by
  unfold namesAt
  split
  · split_ifs
    · exact nodup_names _ _
    · exact List.nodup_nil
  · exact List.nodup_nil

/-! ## What is missing -/

/-- A path that the tree can hold: no NUL is in it, and neither it nor a name in it is too long. -/
def CanHold (p : Path) : Prop :=
  '\x00' ∉ p.text.toList ∧ p.text.utf8ByteSize < pathLimit ∧
    ∀ n ∈ p.names, n.utf8ByteSize ≤ nameLimit

instance (p : Path) : Decidable (CanHold p) := inferInstanceAs (Decidable (_ ∧ _ ∧ _))

/-- Some of the steps of a path, but not all, lead to a file. -/
def LeadsThroughFile (t : FileTree) (p : Path) : Prop :=
  ∃ front n rest l content, p.names = front ++ n :: rest ∧
    front.foldlM t.step [] = .ok l ∧ t.lookup l = some (.file content)

/-- What is not there is not found, unless a file or a length is in the way. -/
theorem nodeAt_eq_notFound (habsent : t.isPresent p = false) (hfile : ¬ t.LeadsThroughFile p)
    (hhold : CanHold p) : t.nodeAt p = .error .notFound := by
  obtain ⟨hnul, hshort, hnames⟩ := hhold
  cases hp : t.locate p with
  | ok l =>
    rw [nodeAt_of_locate hp]
    cases hl : t.lookup l with
    | none => rfl
    | some node =>
      rw [isPresent_iff.mpr ⟨l, node, hp, hl⟩] at habsent
      cases habsent
  | error fault =>
    rw [nodeAt_of_locate_error hp]
    obtain ⟨-, rfl⟩ | hwalk := locate_eq_error hnul hshort hp
    · rfl
    obtain ⟨front, n, rest, l, hsplit, hfront, hstep⟩ := exists_step_of_walk_error hwalk
    obtain ⟨rfl, -⟩ | ⟨-, content, hl⟩ | ⟨-, -, -, hlong⟩ := step_eq_error_iff.mp hstep
    · rfl
    · exact absurd ⟨front, n, rest, l, content, hsplit, hfront, hl⟩ hfile
    · have := hnames n (by simp [hsplit])
      omega

/-- What is not found cannot be read, for the same reason. -/
theorem readFile_of_nodeAt_error {fault : IoFault} (h : t.nodeAt p = .error fault) :
    t.readFile p = .error fault := by
  rw [readFile, readFileFrom, ← nodeAt, h]
  rfl

/-- What is not straight down from where a path that is continued leads is not found, unless a file
or a length is in the way. -/
theorem readFile_extends_eq_notFound {base : Path} {r : Location} {names : List String}
    (hbase : t.locate base = .ok r) (h : p.Extends base names) (hway : t.Unblocked r p names)
    (habsent : t.lookup (r ++ names) = none) : t.readFile p = .error .notFound := by
  apply readFile_of_nodeAt_error
  obtain hplace | hmissing := hway.locate hbase h
  · rw [nodeAt_of_locate hplace, habsent]
  · exact nodeAt_of_locate_error hmissing

/-- What leads to a file cannot be followed further. -/
theorem readFile_extends_eq_notADirectory {base : Path} {r : Location} {names front : List String}
    (hbase : t.locate base = .ok r) (h : p.Extends base names)
    (hshort : p.text.utf8ByteSize < pathLimit) (hnames : ∀ n ∈ names, n.utf8ByteSize ≤ nameLimit)
    (hfront : front <+: names) (hne : front ≠ names)
    (hfile : t.lookup (r ++ front) = some (.file content)) :
    t.readFile p = .error .notADirectory := by
  obtain ⟨rest, rfl⟩ := hfront
  obtain ⟨n, rest, rfl⟩ := List.exists_cons_of_ne_nil fun hnil : rest = [] =>
    hne (by rw [hnil, List.append_nil])
  have hplain : ∀ m ∈ front, Path.IsPlain m := fun m hm => h.plain m (List.mem_append_left _ hm)
  have hwalk : front.foldlM t.step r = .ok (r ++ front) := by
    refine (walk_eq_ok_iff hplain).mpr
      ⟨rfl, fun m hm => hnames m (List.mem_append_left _ hm), fun hne => ?_⟩
    have hparent := @lookup_dropLast t (r ++ front) (hfile ▸ Option.some_ne_none _)
    rwa [List.dropLast_append_of_ne_nil hne] at hparent
  have hlocate := locate_extends hbase h
  rw [if_neg (Nat.not_le.mpr hshort), List.foldlM_append, hwalk, ok_bind, List.foldlM_cons, step,
    hfile] at hlocate
  exact readFile_of_nodeAt_error (nodeAt_of_locate_error hlocate)

/-- A path that continues another one and is too long cannot be followed. -/
theorem readFile_extends_eq_nameTooLong {base : Path} {r : Location} {names : List String}
    (hbase : t.locate base = .ok r) (h : p.Extends base names)
    (hlong : pathLimit ≤ p.text.utf8ByteSize) : t.readFile p = .error .nameTooLong := by
  have hlocate := locate_extends hbase h
  rw [if_pos hlong] at hlocate
  exact readFile_of_nodeAt_error (nodeAt_of_locate_error hlocate)

/-- A directory is no file. -/
theorem readFile_of_isDirectory (h : t.isDirectory p = true) :
    t.readFile p = .error .isADirectory := by
  have hnode : t.nodeAt p = .ok .directory := nodeAt_eq_ok_iff.mpr (isDirectory_iff.mp h)
  rw [readFile, readFileFrom, ← nodeAt, hnode]
  rfl

/-! ## What cannot be read -/

/-- A path with something in the way of reading it: a directory stands there, a step is to be taken
from a file, or the file there is not text. -/
def IsUnreadable (t : FileTree) (p : Path) : Prop :=
  t.isDirectory p = true ∨ t.LeadsThroughFile p ∨
    ∃ content, t.readFile p = .ok content ∧ Bytes.toText? content = none

/-- A walk ends at a file that it has to go through. -/
theorem walk_of_leadsThroughFile (h : t.LeadsThroughFile p) :
    p.names.foldlM t.step [] = .error .notADirectory := by
  obtain ⟨front, n, rest, l, content, hsplit, hfront, hfile⟩ := h
  rw [hsplit, List.foldlM_append, hfront, ok_bind, List.foldlM_cons, step, hfile]
  rfl

/-- What cannot be read is a fault, and another one than that of what is not there. -/
theorem readText_of_isUnreadable (h : t.IsUnreadable p) :
    ∃ fault, t.readText p = .error fault ∧ fault ≠ .notFound := by
  obtain hdir | hfile | ⟨content, hread, htext⟩ := h
  · exact ⟨_, readText_of_error (readFile_of_isDirectory hdir), by decide⟩
  · have hempty : p.text.isEmpty = false := by
      rw [Bool.eq_false_iff, ne_eq, String.isEmpty_iff]
      intro hempty
      obtain ⟨front, n, rest, -, -, hsplit, -⟩ := hfile
      simp [Path.names, Path.pieces, hempty] at hsplit
    have hfault : ∃ fault, t.locate p = .error fault ∧ fault ≠ .notFound := by
      unfold locate locateFrom
      simp only [ite_self, hempty, Bool.false_eq_true, if_false, walk_of_leadsThroughFile hfile]
      split_ifs
      · exact ⟨_, rfl, by decide⟩
      · exact ⟨_, rfl, by decide⟩
      · exact ⟨_, rfl, by decide⟩
    obtain ⟨fault, hlocate, hne⟩ := hfault
    refine ⟨fault, readText_of_error (readFile_of_nodeAt_error ?_), hne⟩
    exact nodeAt_of_locate_error hlocate
  · refine ⟨.notUtf8, ?_, by decide⟩
    rw [readText, hread, ok_bind, htext]

end ObjectStore.FileTree
