import Mathlib.Data.List.Induction
import ObjectStore.FileTree.Access
import ObjectStore.Proofs.Path.Extension
import ObjectStore.Proofs.Results

/-!
# Where paths lead

A path is followed by steps, each taken from a directory. This module says where that leads, in
terms of the view of the tree.

* `walk_eq_ok_iff`: steps down lead straight down, if the last of them is taken from a directory.
* `locate_extends`, `locate_extends_eq_ok_iff`: a path that continues another one leads on, straight
  down, from where that one leads.
* `Unblocked`, `Unblocked.locate`: it does, or a step of it is missing, if nothing is in its way.
* `locate_of_directories`: a path leads to the same location in every tree that has at least the
  same directories.
* `locate_put_file_iff`: no path leads anywhere else once a file is put where no directory is.
* `accepts_of_locate`: where a path leads, a node can be put, unless there is a directory.
-/

namespace ObjectStore.FileTree

variable {t t' : FileTree} {l m : Location} {names : List String}

/-! ## The view of a tree -/

/-- The view after a node was put somewhere. -/
theorem lookup_put {node : Node} (h : t.accepts l = true) :
    (t.put l node).lookup m = if m = l then some node else t.lookup m := by
  split_ifs with hm
  · rw [hm, lookup_put_self h]
  · exact lookup_put_of_ne hm node

/-- What leads to something is a directory. -/
theorem lookup_of_append {rest : List String} (h : t.lookup (l ++ rest) ≠ none) (hne : rest ≠ []) :
    t.lookup l = some .directory := by
  induction rest using List.reverseRecOn with
  | nil => exact absurd rfl hne
  | append_singleton rest n ih =>
    have hparent := lookup_dropLast h
    rw [← List.append_assoc, List.dropLast_concat] at hparent
    by_cases hrest : rest = []
    · rwa [hrest, List.append_nil] at hparent
    · exact ih (by simp [hparent]) hrest

/-- What a directory lies in is a directory. -/
theorem directory_of_prefix (hm : t.lookup m = some .directory) (h : l <+: m) :
    t.lookup l = some .directory := by
  obtain ⟨rest, rfl⟩ := h
  by_cases hrest : rest = []
  · rwa [hrest, List.append_nil] at hm
  · exact lookup_of_append (hm ▸ Option.some_ne_none _) hrest

/-! ## Steps -/

/-- A step down from a location, if it can be taken. -/
theorem step_eq_ok_iff {n : String} (h : Path.IsPlain n) :
    t.step l n = .ok m ↔
      m = l ++ [n] ∧ t.lookup l = some .directory ∧ n.utf8ByteSize ≤ nameLimit := by
  unfold step
  split
  · rename_i hl
    simp [hl]
  · rename_i hl
    simp [hl]
  · rename_i hl
    rw [if_neg h.1, if_neg h.2]
    split_ifs with hn
    · simp [Nat.not_le.mpr hn]
    · simp [hl, Nat.not_lt.mp hn, eq_comm]

/-- A step that can be taken starts from a directory. -/
theorem directory_of_step {n : String} (h : t.step l n = .ok m) :
    t.lookup l = some .directory := by
  unfold step at h
  split at h
  · cases h
  · cases h
  · assumption

/-- Steps down lead straight down, if the last of them is taken from a directory. -/
theorem walk_eq_ok_iff (h : ∀ n ∈ names, Path.IsPlain n) :
    names.foldlM t.step l = .ok m ↔
      m = l ++ names ∧ (∀ n ∈ names, n.utf8ByteSize ≤ nameLimit) ∧
        (names ≠ [] → t.lookup (l ++ names.dropLast) = some .directory) := by
  induction names generalizing l with
  | nil => simp [pure, Except.pure, eq_comm]
  | cons n names ih =>
    have hn : Path.IsPlain n := h n List.mem_cons_self
    have ih := ih (l := l ++ [n]) fun n hn => h n (List.mem_cons_of_mem _ hn)
    rw [List.append_assoc, List.singleton_append] at ih
    rw [List.foldlM_cons, bind_eq_ok_iff]
    constructor
    · rintro ⟨next, hstep, hwalk⟩
      obtain ⟨rfl, hl, hshort⟩ := (step_eq_ok_iff hn).mp hstep
      obtain ⟨hm, hall, hdir⟩ := ih.mp hwalk
      refine ⟨hm, List.forall_mem_cons.mpr ⟨hshort, hall⟩, fun _ => ?_⟩
      by_cases hnames : names = []
      · simpa [hnames] using hl
      · have := hdir hnames
        rwa [List.append_assoc, List.singleton_append,
          ← List.dropLast_cons_of_ne_nil hnames] at this
    · rintro ⟨hm, hall, hdir⟩
      have hdir := hdir (List.cons_ne_nil _ _)
      obtain ⟨hshort, hall⟩ := List.forall_mem_cons.mp hall
      have hl : t.lookup l = some .directory := by
        by_cases hnames : names = []
        · simpa [hnames] using hdir
        · rw [List.dropLast_cons_of_ne_nil hnames] at hdir
          exact lookup_of_append (by rw [hdir]; simp) (List.cons_ne_nil _ _)
      refine ⟨l ++ [n], (step_eq_ok_iff hn).mpr ⟨rfl, hl, hshort⟩, ih.mpr ⟨hm, hall, ?_⟩⟩
      intro hnames
      rwa [List.dropLast_cons_of_ne_nil hnames, ← List.singleton_append,
        ← List.append_assoc] at hdir

/-- A walk that arrives has come to a directory, or to a place in one. -/
theorem directory_or_parent_of_walk (h : names.foldlM t.step l = .ok m)
    (hl : t.lookup l = some .directory) :
    t.lookup m = some .directory ∨ m ≠ [] ∧ t.lookup m.dropLast = some .directory := by
  induction names using List.reverseRecOn generalizing m with
  | nil =>
    cases h
    exact Or.inl hl
  | append_singleton names n _ =>
    rw [List.foldlM_append, bind_eq_ok_iff] at h
    obtain ⟨last, -, h⟩ := h
    rw [List.foldlM_cons, bind_eq_ok_iff] at h
    obtain ⟨next, hstep, h⟩ := h
    cases h
    have hlast := directory_of_step hstep
    rw [step, hlast] at hstep
    simp only at hstep
    split_ifs at hstep <;> cases hstep
    · exact Or.inl hlast
    · exact Or.inl (lookup_dropLast (by rw [hlast]; simp))
    · exact Or.inr ⟨by simp, by rwa [List.dropLast_concat]⟩

/-- A walk is the same in every tree that has at least the same directories. -/
theorem walk_of_directories
    (hdirs : ∀ l, t.lookup l = some .directory → t'.lookup l = some .directory)
    (h : names.foldlM t.step l = .ok m) : names.foldlM t'.step l = .ok m := by
  induction names generalizing l with
  | nil => exact h
  | cons n names ih =>
    rw [List.foldlM_cons, bind_eq_ok_iff] at h ⊢
    obtain ⟨next, hstep, h⟩ := h
    have hl := directory_of_step hstep
    have hsame : t'.step l n = t.step l n := by
      unfold step
      rw [hl, hdirs l hl]
    exact ⟨next, hsame.trans hstep, ih h⟩

/-- A step that cannot be taken: nothing is there to step from, or a file, or the name is too
long. -/
theorem step_eq_error_iff {n : String} {fault : IoFault} :
    t.step l n = .error fault ↔
      (fault = .notFound ∧ t.lookup l = none) ∨
      (fault = .notADirectory ∧ ∃ content, t.lookup l = some (.file content)) ∨
      (fault = .nameTooLong ∧ t.lookup l = some .directory ∧ Path.IsPlain n ∧
        nameLimit < n.utf8ByteSize) := by
  unfold step Path.IsPlain
  cases hl : t.lookup l with
  | none => simp [eq_comm]
  | some node =>
    cases node with
    | file content => simp [eq_comm]
    | directory =>
      simp only
      split_ifs with hdot hdots hlong
      · simp [hdot]
      · simp [hdots]
      · simp [hdot, hdots, hlong, eq_comm]
      · simp [hlong]

/-- A walk that fails does so at one of its steps. -/
theorem exists_step_of_walk_error {fault : IoFault} (h : names.foldlM t.step l = .error fault) :
    ∃ front n rest m, names = front ++ n :: rest ∧ front.foldlM t.step l = .ok m ∧
      t.step m n = .error fault := by
  induction names generalizing l with
  | nil => cases h
  | cons n names ih =>
    rw [List.foldlM_cons] at h
    cases hstep : t.step l n with
    | error err =>
      rw [hstep] at h
      cases h
      exact ⟨[], n, names, l, rfl, rfl, hstep⟩
    | ok next =>
      rw [hstep] at h
      obtain ⟨front, n', rest, m, rfl, hfront, hn⟩ := ih h
      refine ⟨n :: front, n', rest, m, rfl, ?_, hn⟩
      rw [List.foldlM_cons, hstep]
      exact hfront

/-- Steps fail for what is missing, in the way or too long. -/
theorem walk_error_cases {fault : IoFault} (h : names.foldlM t.step l = .error fault) :
    fault = .notFound ∨ fault = .notADirectory ∨ fault = .nameTooLong := by
  obtain ⟨front, n, rest, m, -, -, hstep⟩ := exists_step_of_walk_error h
  exact (step_eq_error_iff.mp hstep).imp And.left (Or.imp And.left And.left)

/-! ## Paths -/

variable {p base : Path} {r : Location}

/-- A path leads somewhere if it can be followed, step by step. -/
theorem locate_eq_ok_iff :
    t.locate p = .ok l ↔
      '\x00' ∉ p.text.toList ∧ p.text ≠ "" ∧ p.text.utf8ByteSize < pathLimit ∧
        p.names.foldlM t.step [] = .ok l := by
  unfold locate locateFrom
  rw [ite_self]
  split_ifs with hnul hempty hlong
  · simp_all
  · simp_all
  · simp [Nat.not_lt.mpr hlong]
  · simp_all

/-- The path of a single slash leads to the root. -/
theorem locate_root (t : FileTree) : t.locate ⟨"/"⟩ = .ok [] := by
  have hnames : (⟨"/"⟩ : Path).names = ["."] := by decide
  have hstep : t.step [] "." = .ok [] := by simp [step]
  refine locate_eq_ok_iff.mpr ⟨by decide, by decide, by decide, ?_⟩
  rw [hnames, List.foldlM_cons, hstep]
  rfl

/-- A path of slashes leads to the root, if it is not too long. -/
theorem locate_slashes {n : Nat} (h : n + 1 < pathLimit) (t : FileTree) :
    t.locate ⟨String.ofList (List.replicate (n + 1) '/')⟩ = .ok [] := by
  have hlist : (String.ofList (List.replicate (n + 1) '/')).toList = List.replicate (n + 1) '/' :=
    String.toList_ofList
  refine locate_eq_ok_iff.mpr ⟨?_, ?_, ?_, ?_⟩
  · rw [hlist]
    intro hnul
    exact absurd (List.eq_of_mem_replicate hnul) (by decide)
  · rw [ne_eq, String.ofList_eq_empty_iff]
    exact List.cons_ne_nil _ _
  · rwa [utf8ByteSize_slashes]
  · have hpieces := Path.pieces_replicate_slash [] (n + 1)
    rw [List.nil_append, Path.pieces] at hpieces
    have hlast : (List.replicate (n + 1) '/').getLast? = some '/' := by
      rw [List.replicate_succ', List.getLast?_concat]
    have hnames : (⟨String.ofList (List.replicate (n + 1) '/')⟩ : Path).names = ["."] := by
      rw [Path.names, hlist, hpieces, hlast]
      rfl
    rw [hnames, List.foldlM_cons, step, lookup_nil]
    rfl

/-- A short path without NULs that leads nowhere is empty, or cannot be walked. -/
theorem locate_eq_error {fault : IoFault} (hnul : '\x00' ∉ p.text.toList)
    (hshort : p.text.utf8ByteSize < pathLimit) (h : t.locate p = .error fault) :
    p.text = "" ∧ fault = .notFound ∨ p.names.foldlM t.step [] = .error fault := by
  unfold locate locateFrom at h
  rw [ite_self] at h
  split_ifs at h with hcontains hempty hlong
  · exact absurd (List.contains_iff_mem.mp hcontains) hnul
  · cases h
    exact Or.inl ⟨String.isEmpty_iff.mp hempty, rfl⟩
  · exact absurd hlong (Nat.not_le.mpr hshort)
  · exact Or.inr h

/-- What a path leads to may be missing or blocked, or the path cannot be one. -/
theorem locate_error_cases {fault : IoFault} (h : t.locate p = .error fault) :
    fault = .nulInPath ∨ fault = .notFound ∨ fault = .notADirectory ∨ fault = .nameTooLong := by
  unfold locate locateFrom at h
  rw [ite_self] at h
  split_ifs at h
  · cases h
    exact Or.inl rfl
  · cases h
    exact Or.inr (Or.inl rfl)
  · cases h
    exact Or.inr (Or.inr (Or.inr rfl))
  · exact Or.inr (walk_error_cases h)

/-- It is never there already. -/
theorem locate_ne_alreadyExists (p : Path) : t.locate p ≠ .error .alreadyExists := by
  intro h
  simpa using locate_error_cases h

/-- A path leads to the same location in every tree that has at least the same directories. -/
theorem locate_of_directories
    (hdirs : ∀ l, t.lookup l = some .directory → t'.lookup l = some .directory)
    (h : t.locate p = .ok l) : t'.locate p = .ok l := by
  obtain ⟨hnul, hempty, hshort, hwalk⟩ := locate_eq_ok_iff.mp h
  exact locate_eq_ok_iff.mpr ⟨hnul, hempty, hshort, walk_of_directories hdirs hwalk⟩

/-- A file that is put where no directory is makes none and takes none away. -/
theorem directory_put_file_iff {content : Bytes} (hl : t.lookup l ≠ some .directory) :
    (t.put l (.file content)).lookup m = some .directory ↔ t.lookup m = some .directory := by
  cases haccepts : t.accepts l with
  | false => rw [put_of_not_accepts haccepts]
  | true =>
    rw [lookup_put haccepts]
    split_ifs with hm
    · simp [hm, hl]
    · rfl

/-- So every path leads where it did before. -/
theorem locate_put_file_iff {content : Bytes} (hl : t.lookup l ≠ some .directory) :
    (t.put l (.file content)).locate p = .ok m ↔ t.locate p = .ok m :=
  ⟨locate_of_directories fun _ => (directory_put_file_iff hl).mp,
    locate_of_directories fun _ => (directory_put_file_iff hl).mpr⟩

/-- Where a path leads, a node can be put, unless there is a directory. -/
theorem accepts_of_locate (h : t.locate p = .ok l) (hl : t.lookup l ≠ some .directory) :
    t.accepts l = true := by
  obtain ⟨-, -, -, hwalk⟩ := locate_eq_ok_iff.mp h
  obtain hdir | ⟨hne, hparent⟩ := directory_or_parent_of_walk hwalk (lookup_nil t)
  · exact absurd hdir hl
  · exact accepts_iff.mpr ⟨hne, hparent, hl⟩

/-- The last step of a path that ends in a slash does not lead anywhere else. -/
theorem walk_pieces (h : base.names.foldlM t.step [] = .ok r) :
    (Path.pieces [] base.text.toList).foldlM t.step [] = .ok r := by
  rw [Path.names] at h
  split_ifs at h
  · rw [List.foldlM_append, bind_eq_ok_iff] at h
    obtain ⟨last, hpieces, h⟩ := h
    rw [List.foldlM_cons, bind_eq_ok_iff] at h
    obtain ⟨next, hstep, h⟩ := h
    cases h
    rw [step, directory_of_step hstep] at hstep
    simp only [if_true] at hstep
    cases hstep
    exact hpieces
  · exact h

/-- A directory can be named with a slash behind its path. -/
theorem locate_append_slash (h : t.locate p = .ok l) (hdir : t.lookup l = some .directory)
    (hshort : (p.text ++ "/").utf8ByteSize < pathLimit) : t.locate ⟨p.text ++ "/"⟩ = .ok l := by
  obtain ⟨hnul, hempty, -, hwalk⟩ := locate_eq_ok_iff.mp h
  have hlist : (p.text ++ "/").toList = p.text.toList ++ ['/'] := String.toList_append
  have hpieces : Path.pieces [] (p.text.toList ++ ['/']) = Path.pieces [] p.text.toList :=
    Path.pieces_replicate_slash p.text.toList 1
  have hnames : (⟨p.text ++ "/"⟩ : Path).names = Path.pieces [] p.text.toList ++ ["."] := by
    rw [Path.names, hlist, hpieces, List.getLast?_concat]
    rfl
  refine locate_eq_ok_iff.mpr ⟨?_, ?_, hshort, ?_⟩
  · rw [hlist, List.mem_append, List.mem_singleton]
    exact fun hmem => hmem.elim hnul (by decide)
  · simp
  · rw [hnames, List.foldlM_append, walk_pieces hwalk, ok_bind, List.foldlM_cons, step, hdir]
    rfl

/-- A path that continues another one leads on from the directory that one leads to. -/
theorem locate_extends (hbase : t.locate base = .ok r) (h : p.Extends base names) :
    t.locate p =
      if pathLimit ≤ p.text.utf8ByteSize then .error .nameTooLong else names.foldlM t.step r := by
  obtain ⟨hnul, hempty, -, hwalk⟩ := locate_eq_ok_iff.mp hbase
  have hsteps := walk_pieces hwalk
  obtain ⟨tail, htext, -, -, -, htail⟩ := h.exists_tail
  have hpnul : '\x00' ∉ p.text.toList := by
    rw [htext]
    exact fun hm => (List.mem_append.mp hm).elim hnul htail
  unfold locate locateFrom
  rw [ite_self, h.names_eq, List.foldlM_append, hsteps]
  simp [hpnul, h.text_ne, bind, Except.bind]

/-- A path that continues another one leads straight down from where that one leads. -/
theorem locate_extends_eq_ok_iff (hbase : t.locate base = .ok r) (h : p.Extends base names) :
    t.locate p = .ok l ↔
      p.text.utf8ByteSize < pathLimit ∧ l = r ++ names ∧
        (∀ n ∈ names, n.utf8ByteSize ≤ nameLimit) ∧
        (names ≠ [] → t.lookup (r ++ names.dropLast) = some .directory) := by
  rw [locate_extends hbase h]
  split_ifs with hlong
  · simp [Nat.not_lt.mpr hlong]
  · simp [Nat.not_le.mp hlong, walk_eq_ok_iff h.plain]

/-- If a path that continues another one leads anywhere, that one leads to a directory. -/
theorem locate_of_extends (hp : t.locate p = .ok l) (h : p.Extends base names) (hne : names ≠ [])
    (hbase : base.text ≠ "") :
    ∃ r, t.locate base = .ok r ∧ t.lookup r = some .directory := by
  obtain ⟨hnul, -, hshort, hwalk⟩ := locate_eq_ok_iff.mp hp
  obtain ⟨tail, htext, -, -, -, -⟩ := h.exists_tail
  rw [h.names_eq, List.foldlM_append, bind_eq_ok_iff] at hwalk
  obtain ⟨r, hpieces, hrest⟩ := hwalk
  obtain ⟨n, rest, rfl⟩ := List.exists_cons_of_ne_nil hne
  rw [List.foldlM_cons, bind_eq_ok_iff] at hrest
  obtain ⟨next, hstep, -⟩ := hrest
  have hr := directory_of_step hstep
  refine ⟨r, locate_eq_ok_iff.mpr ⟨?_, hbase, Nat.lt_trans h.utf8ByteSize_lt hshort, ?_⟩, hr⟩
  · intro hm
    exact hnul (htext ▸ List.mem_append_left _ hm)
  · rw [Path.names]
    split_ifs
    · rw [List.foldlM_append, hpieces, ok_bind, List.foldlM_cons, step, hr]
      rfl
    · exact hpieces

/-- A path with one name behind a directory leads there, unless it is too long. -/
theorem locate_extends_concat {n : String} (hbase : t.locate base = .ok r)
    (h : p.Extends base (names ++ [n])) (hdir : t.lookup (r ++ names) = some .directory) :
    t.locate p = .error .nameTooLong ∨ t.locate p = .ok (r ++ (names ++ [n])) := by
  rw [locate_extends hbase h]
  split_ifs
  · exact Or.inl rfl
  · cases hwalk : (names ++ [n]).foldlM t.step r with
    | ok l => exact Or.inr (congrArg _ ((walk_eq_ok_iff h.plain).mp hwalk).1)
    | error fault =>
      obtain ⟨front, m, rest, l, hsplit, hfront, hstep⟩ := exists_step_of_walk_error hwalk
      have hplain : ∀ k ∈ front, Path.IsPlain k := fun k hk =>
        h.plain k (hsplit ▸ List.mem_append_left _ hk)
      obtain ⟨rfl, -⟩ := (walk_eq_ok_iff hplain).mp hfront
      have hl : t.lookup (r ++ front) = some .directory := by
        refine directory_of_prefix hdir ((List.prefix_append_right_inj r).mpr ?_)
        obtain rfl | hprefix := List.prefix_concat_iff.mp ⟨m :: rest, hsplit.symm⟩
        · simp at hsplit
        · exact hprefix
      obtain ⟨-, hnone⟩ | ⟨-, content, hfile⟩ | ⟨rfl, -⟩ := step_eq_error_iff.mp hstep
      · rw [hl] at hnone
        cases hnone
      · rw [hl] at hfile
        cases hfile
      · exact Or.inl rfl

/-- Such a path is not missing a step. -/
theorem locate_ne_notFound {n : String} (hbase : t.locate base = .ok r)
    (hr : t.lookup r = some .directory) (h : p.Extends base [n]) :
    t.locate p ≠ .error .notFound := by
  have hdir : t.lookup (r ++ []) = some .directory := by rwa [List.append_nil]
  obtain hlong | hok := locate_extends_concat hbase h hdir
  · simp [hlong]
  · simp [hok]

/-- Nothing is in the way of a path that continues another one by these names: it is not too long,
none of the names is, and there is no file on the way or at its end. -/
structure Unblocked (t : FileTree) (r : Location) (p : Path) (names : List String) : Prop where
  short : p.text.utf8ByteSize < pathLimit
  names_short : ∀ n ∈ names, n.utf8ByteSize ≤ nameLimit
  no_file : ∀ front content, front <+: names → t.lookup (r ++ front) ≠ some (.file content)

/-- Such a path leads straight down, or is missing a step. -/
theorem Unblocked.locate (hway : t.Unblocked r p names) (hbase : t.locate base = .ok r)
    (h : p.Extends base names) : t.locate p = .ok (r ++ names) ∨ t.locate p = .error .notFound := by
  rw [locate_extends hbase h, if_neg (Nat.not_le.mpr hway.short)]
  cases hwalk : names.foldlM t.step r with
  | ok l =>
    obtain ⟨rfl, -⟩ := (walk_eq_ok_iff h.plain).mp hwalk
    exact Or.inl rfl
  | error fault =>
    obtain ⟨front, n, rest, l, rfl, hfront, hstep⟩ := exists_step_of_walk_error hwalk
    have hplain : ∀ m ∈ front, Path.IsPlain m := fun m hm =>
      h.plain m (List.mem_append_left _ hm)
    obtain ⟨rfl, -⟩ := (walk_eq_ok_iff hplain).mp hfront
    obtain ⟨rfl, -⟩ | ⟨-, content, hl⟩ | ⟨-, -, -, hlong⟩ := step_eq_error_iff.mp hstep
    · exact Or.inr rfl
    · exact absurd hl (hway.no_file front content (List.prefix_append _ _))
    · exact absurd (hway.names_short n (by simp)) (Nat.not_le.mpr hlong)

end ObjectStore.FileTree
