import ObjectStore.Proofs.FileTree.Questions

/-!
# Paths that stay below a directory

Two trees that have the same things below a directory answer every question about a path that stays
below it in the same way, however they differ elsewhere.

* `Path.IsInside`: a relative path none of whose steps leads above the directory it is taken from.
* `FileTree.locate_join`: where a path leads that is taken from another one.
* `FileTree.AgreeBelow`: two trees that agree on a path and on everything below where it leads.
  `AgreeBelow.nodeAt`, `AgreeBelow.readText` and their companions are the answers.
-/

namespace ObjectStore

namespace Path

/-! ## Staying inside -/

/-- Whether steps taken that many directories below another one never lead above that. -/
def stays : Nat → List String → Bool
  | _, [] => true
  | depth, n :: rest =>
    if n = "." then stays depth rest
    else if n = ".." then depth != 0 && stays (depth - 1) rest
    else stays (depth + 1) rest

/-- A relative path whose steps never lead above the directory it is taken from. -/
def IsInside (q : Path) : Prop := q.isAbsolute = false ∧ stays 0 (pieces [] q.text.toList) = true

instance (q : Path) : Decidable q.IsInside := inferInstanceAs (Decidable (_ ∧ _))

variable {q base : Path} {names : List String} {depth : Nat}

/-- Names without steps up never lead out. -/
theorem stays_of_plain (h : ∀ n ∈ names, IsPlain n) : stays depth names = true := by
  induction names generalizing depth with
  | nil => rfl
  | cons n names ih =>
    obtain ⟨hn, hnames⟩ := List.forall_mem_cons.mp h
    rw [stays, if_neg hn.1, if_neg hn.2]
    exact ih hnames

/-- A name does not lead out. -/
theorem IsName.isInside {name : String} (h : IsName name) : (⟨name⟩ : Path).IsInside := by
  refine ⟨h.isAbsolute_eq, stays_of_plain fun n hn => ?_⟩
  rw [pieces_of_isName h, List.mem_singleton] at hn
  exact hn ▸ h.2.2.2

/-- A step to where one is does not lead out. -/
theorem stays_concat_dot (h : stays depth names = true) : stays depth (names ++ ["."]) = true := by
  induction names generalizing depth with
  | nil => rfl
  | cons n names ih =>
    rw [List.cons_append, stays]
    rw [stays] at h
    split_ifs with hdot hdots
    · rw [if_pos hdot] at h
      exact ih h
    · rw [if_neg hdot, if_pos hdots, Bool.and_eq_true] at h
      rw [Bool.and_eq_true]
      exact ⟨h.1, ih h.2⟩
    · rw [if_neg hdot, if_neg hdots] at h
      exact ih h

/-! ## Taking a path from another one -/

/-- The steps of a path that is taken from another one. Nothing behind a directory is a slash behind
it. -/
def behind (q : Path) : List String := if q.text.isEmpty then ["."] else q.names

/-- The steps that a path inside adds to a base do not lead out of it. -/
theorem IsInside.stays_behind (h : q.IsInside) : stays 0 q.behind = true := by
  rw [behind]
  split_ifs
  · rfl
  · rw [names]
    split_ifs
    · exact stays_concat_dot h.2
    · exact h.2

/-- A relative path adds a step. -/
theorem behind_ne_nil (hq : q.isAbsolute = false) : q.behind ≠ [] := by
  rw [behind]
  split_ifs with hempty
  · exact List.cons_ne_nil _ _
  · rw [names]
    have hpieces : pieces [] q.text.toList ≠ [] := by
      rw [isAbsolute] at hq
      cases hlist : q.text.toList with
      | nil =>
        rw [String.toList_eq_nil_iff] at hlist
        rw [hlist] at hempty
        exact absurd rfl hempty
      | cons c l =>
        rw [hlist] at hq
        rw [pieces, if_neg (by simpa using hq)]
        exact pieces_ne_nil (List.cons_ne_nil _ _)
    split_ifs
    · simp
    · exact hpieces

/-- A joined path is not empty. -/
theorem text_join_ne (hbase : base.text ≠ "") (hq : q.isAbsolute = false) :
    (base.join q).text ≠ "" := by
  rw [join_eq hq]
  simp [hbase]

/-- The steps of a joined path are those of its base and then those that it adds. -/
theorem names_join (hbase : base.text ≠ "") (hq : q.isAbsolute = false) :
    (base.join q).names = pieces [] base.text.toList ++ q.behind := by
  obtain ⟨slash, htext, hmeet, hslash⟩ : ∃ slash, (base.join q).text.toList
      = base.text.toList ++ (slash ++ q.text.toList) ∧
        (base.text.toList.getLast? = some '/' ∨ (slash ++ q.text.toList).head? = some '/') ∧
        (slash = [] ∧ base.text.toList.getLast? = some '/' ∨ slash = ['/']) := by
    rw [join_eq hq, separator]
    by_cases hend : base.text.toList.getLast? = some '/'
    · exact ⟨[], by simp [hend], Or.inl hend, Or.inl ⟨rfl, hend⟩⟩
    · exact ⟨['/'], by simp [hend, hbase], Or.inr rfl, Or.inr rfl⟩
  have hpieces : pieces [] (slash ++ q.text.toList) = pieces [] q.text.toList := by
    rcases hslash with ⟨rfl, -⟩ | rfl
    · rfl
    · exact pieces_slash _
  rw [names, htext, pieces_append hmeet, hpieces, behind, names]
  by_cases hempty : q.text = ""
  · -- Only a slash is behind the base.
    have hlast : (base.text.toList ++ (slash ++ q.text.toList)).getLast? = some '/' := by
      rcases hslash with ⟨rfl, hend⟩ | rfl
      · simpa [hempty] using hend
      · simp [hempty]
    rw [hlast]
    simp [hempty, pieces]
  · have hne : q.text.toList ≠ [] := fun h => hempty (String.toList_eq_nil_iff.mp h)
    have hlast : (base.text.toList ++ (slash ++ q.text.toList)).getLast?
        = q.text.toList.getLast? := by
      rw [← List.append_assoc, List.getLast?_append_of_ne_nil _ hne]
    have hempty' : ¬ q.text.isEmpty = true := fun h => hempty (String.isEmpty_iff.mp h)
    rw [hlast, if_neg hempty']
    split_ifs
    · exact List.append_assoc _ _ _
    · rfl

end Path

namespace FileTree

variable {t t' : FileTree} {l g : Location} {p q base : Path} {steps names : List String}

/-! ## Where a path leads that is taken from another one -/

/-- Nothing but a directory is stepped from, so a step that stays does not change what comes of the
steps behind it. -/
theorem dot_walk (hne : steps ≠ []) :
    (t.step l "." >>= fun m => steps.foldlM t.step m) = steps.foldlM t.step l := by
  obtain ⟨n, rest, rfl⟩ := List.exists_cons_of_ne_nil hne
  cases hl : t.lookup l with
  | none => simp [step, hl]
  | some node =>
    cases node with
    | file content => simp [step, hl]
    | directory =>
      have hdot : t.step l "." = .ok l := by simp [step, hl]
      rw [hdot, ok_bind]

/-- Taking these steps is going to the base and on from there. -/
theorem walk_names_append (base : Path) (hne : steps ≠ []) :
    (Path.pieces [] base.text.toList ++ steps).foldlM t.step []
      = base.names.foldlM t.step [] >>= fun l => steps.foldlM t.step l := by
  rw [Path.names, List.foldlM_append]
  split_ifs
  · rw [List.foldlM_append, bind_assoc]
    simp only [List.foldlM_cons, List.foldlM_nil, bind_pure, dot_walk hne]
  · rfl

/-- Where a path leads that is not empty. -/
theorem locate_of_text_ne (hp : p.text ≠ "") : t.locate p =
    if '\x00' ∈ p.text.toList then .error .nulInPath
    else if pathLimit ≤ p.text.utf8ByteSize then .error .nameTooLong
    else p.names.foldlM t.step [] := by
  simp [locate, locateFrom, hp]

/-- A path that is taken from another one leads on from where that one leads. -/
theorem locate_join (hbase : base.text ≠ "") (hq : q.isAbsolute = false) :
    t.locate (base.join q) =
      if '\x00' ∈ (base.join q).text.toList then .error .nulInPath
      else if pathLimit ≤ (base.join q).text.utf8ByteSize then .error .nameTooLong
      else t.locate base >>= fun l => q.behind.foldlM t.step l := by
  have htext : (base.join q).text = base.text ++ (base.separator ++ q.text) := by
    rw [Path.join_eq hq, String.append_assoc]
  rw [locate_of_text_ne (Path.text_join_ne hbase hq), locate_of_text_ne hbase]
  split_ifs with hnul hlong hbasenul hbaselong
  · rfl
  · rfl
  · refine absurd ?_ hnul
    rw [htext, String.toList_append]
    exact List.mem_append_left _ hbasenul
  · rw [htext, String.utf8ByteSize_append] at hlong
    omega
  · rw [Path.names_join hbase hq, walk_names_append base (Path.behind_ne_nil hq)]

/-! ## Steps that stay below a location -/

/-- A step depends only on what is at the place that it is taken from. -/
theorem step_congr (h : t.lookup l = t'.lookup l) (n : String) : t.step l n = t'.step l n := by
  rw [step, step, h]

/-- A step of a walk that stays below a location leads below it, and so does the rest. -/
theorem stays_of_step {n : String} (hstays : Path.stays names.length (n :: steps) = true)
    (hstep : t.step (g ++ names) n = .ok l) :
    ∃ names', l = g ++ names' ∧ Path.stays names'.length steps = true := by
  rw [step, directory_of_step hstep] at hstep
  rw [Path.stays] at hstays
  simp only at hstep
  split_ifs at hstep hstays <;> cases hstep
  · exact ⟨names, rfl, hstays⟩
  · rw [Bool.and_eq_true, bne_iff_ne, ne_eq, List.length_eq_zero_iff] at hstays
    refine ⟨names.dropLast, List.dropLast_append_of_ne_nil hstays.1, ?_⟩
    rw [List.length_dropLast]
    exact hstays.2
  · refine ⟨names ++ [n], List.append_assoc _ _ _, ?_⟩
    rw [List.length_append, List.length_singleton]
    exact hstays

/-- Steps that stay below a location lead to the same one below it in trees that agree there. -/
theorem walk_congr (hagree : ∀ names, t.lookup (g ++ names) = t'.lookup (g ++ names))
    (hstays : Path.stays names.length steps = true) :
    steps.foldlM t.step (g ++ names) = steps.foldlM t'.step (g ++ names) ∧
      ∀ l, steps.foldlM t.step (g ++ names) = .ok l → g <+: l := by
  induction steps generalizing names with
  | nil =>
    refine ⟨rfl, fun l hl => ?_⟩
    cases hl
    exact List.prefix_append _ _
  | cons n steps ih =>
    rw [List.foldlM_cons, List.foldlM_cons, ← step_congr (hagree names) n]
    cases hstep : t.step (g ++ names) n with
    | error fault => exact ⟨rfl, nofun⟩
    | ok next =>
      obtain ⟨names', rfl, hstays'⟩ := stays_of_step hstays hstep
      exact ih hstays'

/-! ## Trees that agree below a path -/

/-- Two trees in which a path leads to the same place, with the same things there and below. -/
structure AgreeBelow (base : Path) (t t' : FileTree) : Prop where
  text_ne : base.text ≠ ""
  locate_eq : t.locate base = t'.locate base
  lookup_eq : ∀ g names, t.locate base = .ok g → t.lookup (g ++ names) = t'.lookup (g ++ names)

/-- Nothing that is put where there is no directory takes a directory away. -/
theorem directory_put_of_directory {node : Node} {m : Location}
    (hl : t.lookup l ≠ some .directory) (hm : t.lookup m = some .directory) :
    (t.put l node).lookup m = some .directory := by
  rwa [lookup_put_of_ne]
  rintro rfl
  exact hl hm

namespace AgreeBelow

/-- A tree agrees below a path with one in which something is put elsewhere. -/
theorem put (hbase : base.text ≠ "") (hg : t.locate base = .ok g) (hout : ¬ g <+: l)
    (hl : t.lookup l ≠ some .directory) (node : Node) : AgreeBelow base t (t.put l node) := by
  have hlocate : (t.put l node).locate base = .ok g :=
    locate_of_directories (fun _ => directory_put_of_directory hl) hg
  refine ⟨hbase, hg.trans hlocate.symm, fun g' names hg' => ?_⟩
  obtain rfl : g = g' := Except.ok.inj (hg.symm.trans hg')
  refine (lookup_put_of_ne ?_ _).symm
  rintro rfl
  exact hout (List.prefix_append _ _)

/-- Trees that agree below a path agree below every path that stays below it. -/
theorem join (h : AgreeBelow base t t') (hq : q.IsInside) : AgreeBelow (base.join q) t t' := by
  have hwalk : ∀ g, t.locate base = .ok g →
      q.behind.foldlM t.step g = q.behind.foldlM t'.step g ∧
        ∀ l, q.behind.foldlM t.step g = .ok l → g <+: l := by
    intro g hg
    have := @walk_congr t t' g q.behind [] (h.lookup_eq g · hg) hq.stays_behind
    rwa [List.append_nil] at this
  refine ⟨Path.text_join_ne h.text_ne hq.1, ?_, fun l names hl => ?_⟩
  · rw [locate_join h.text_ne hq.1, locate_join h.text_ne hq.1, ← h.locate_eq]
    cases hg : t.locate base with
    | error fault => rfl
    | ok g => rw [ok_bind, ok_bind, (hwalk g hg).1]
  · rw [locate_join h.text_ne hq.1] at hl
    split_ifs at hl
    obtain ⟨g, hg, hl⟩ := bind_eq_ok_iff.mp hl
    obtain ⟨more, rfl⟩ := (hwalk g hg).2 l hl
    rw [List.append_assoc]
    exact h.lookup_eq g (more ++ names) hg

/-- Trees that agree below a path have the same node there. -/
theorem nodeAt (h : AgreeBelow base t t') : t.nodeAt base = t'.nodeAt base := by
  cases hg : t.locate base with
  | error fault =>
    rw [nodeAt_of_locate_error hg, nodeAt_of_locate_error (h.locate_eq ▸ hg)]
  | ok g =>
    have hlookup := h.lookup_eq g [] hg
    rw [List.append_nil] at hlookup
    rw [nodeAt_of_locate hg, nodeAt_of_locate (h.locate_eq ▸ hg), hlookup]

/-- Trees that agree below a path agree on whether anything is there. -/
theorem isPresent (h : AgreeBelow base t t') : t.isPresent base = t'.isPresent base := by
  rw [FileTree.isPresent, FileTree.isPresent, h.nodeAt]

/-- Trees that agree below a path agree on whether a file is there. -/
theorem isFile (h : AgreeBelow base t t') : t.isFile base = t'.isFile base := by
  rw [FileTree.isFile, FileTree.isFile, h.nodeAt]

/-- Trees that agree below a path have the same text there. -/
theorem readText (h : AgreeBelow base t t') : t.readText base = t'.readText base := by
  have hfile : t.readFile base = t'.readFile base := by
    rw [readFile, readFile, readFileFrom, readFileFrom, ← FileTree.nodeAt, ← FileTree.nodeAt,
      h.nodeAt]
  rw [FileTree.readText, FileTree.readText, hfile]

/-- The same names are listed, though perhaps not in the same order. -/
theorem namesAt_perm (h : AgreeBelow base t t') : (t.namesAt base).Perm (t'.namesAt base) := by
  refine (List.perm_ext_iff_of_nodup (nodup_namesAt t base) (nodup_namesAt t' base)).mpr fun n => ?_
  rw [mem_namesAt_iff, mem_namesAt_iff, ← h.locate_eq]
  refine exists_congr fun g => and_congr_right fun hg => ?_
  have hlookup := h.lookup_eq g [] hg
  rw [List.append_nil] at hlookup
  rw [hlookup, h.lookup_eq g [n] hg]

end AgreeBelow

end FileTree

end ObjectStore
