import ObjectStore.Bytes

/-!
# The file tree

A file tree is a finite map from locations to nodes. A location is the row of names that lead to
it from the root; a node is a directory or a file with its content. No location occurs twice, the
root is a directory without being an entry, and the parent of every entry is a directory: these
are part of the type.

* `FileTree.lookup` is the view: what stands at a location, if anything.
* `FileTree.put`, `FileTree.erase` and `FileTree.prune` are the only changes. Each does nothing
  where it would break the shape of the tree.

The main statements say what putting a node does to the view (`lookup_put_self`,
`lookup_put_of_ne`) and that a node's parent is a directory (`lookup_dropLast`).
-/

namespace ObjectStore

/-- The names that lead from the root to a place in the tree. -/
abbrev Location := List String

/-- What stands at a location. -/
inductive Node where
  | directory
  | file (content : Bytes)
  deriving DecidableEq

/-- A finite tree of directories and files. -/
structure FileTree where
  /-- Every location but the root's, with what stands there. -/
  entries : List (Location × Node)
  nodup : (entries.map Prod.fst).Nodup
  /-- Every entry is below the root, in a directory. -/
  closed : ∀ e ∈ entries,
    e.1 ≠ [] ∧ (e.1.dropLast = [] ∨ (e.1.dropLast, Node.directory) ∈ entries)

namespace FileTree

/-- The tree with nothing but its root. -/
def empty : FileTree := ⟨[], by simp, by simp⟩

/-- What stands at a location. -/
def lookup (t : FileTree) (loc : Location) : Option Node :=
  if loc = [] then some .directory
  else (t.entries.find? fun e => e.1 == loc).map Prod.snd

/-- The root is a directory. -/
@[simp] theorem lookup_nil (t : FileTree) : t.lookup [] = some .directory := by
  simp [lookup]

/-- Below the root, the view is what the entries say. -/
theorem lookup_eq_some_iff {t : FileTree} {loc : Location} {node : Node} (h : loc ≠ []) :
    t.lookup loc = some node ↔ (loc, node) ∈ t.entries := by
  have key : ∀ l : List (Location × Node), (l.map Prod.fst).Nodup →
      ((l.find? fun e => e.1 == loc).map Prod.snd = some node ↔ (loc, node) ∈ l) := by
    intro l hl
    induction l with
    | nil => simp
    | cons e l ih =>
      rw [List.map_cons, List.nodup_cons] at hl
      by_cases he : e.1 = loc
      · have : (loc, node) ∉ l := fun hm =>
          hl.1 (he ▸ List.mem_map.mpr ⟨(loc, node), hm, rfl⟩)
        subst he
        simp only [List.find?_cons, beq_self_eq_true, Option.map_some, Option.some.injEq,
          List.mem_cons, this, or_false]
        constructor
        · rintro rfl; rfl
        · intro h; rw [← h]
      · have hne : (loc, node) ≠ e := fun hm => he (by rw [← hm])
        simp only [List.find?_cons, beq_eq_false_iff_ne.mpr he, List.mem_cons, hne, false_or]
        exact ih hl.2
  simp only [lookup, if_neg h]
  exact key t.entries t.nodup

/-- Whether a node may be put at a location: below a directory, and not over one. -/
def accepts (t : FileTree) (loc : Location) : Bool :=
  loc != [] && t.lookup loc.dropLast == some .directory && t.lookup loc != some .directory

/-- A node is accepted in a directory, where no directory is. -/
theorem accepts_iff {t : FileTree} {loc : Location} :
    t.accepts loc = true ↔
      loc ≠ [] ∧ t.lookup loc.dropLast = some .directory ∧ t.lookup loc ≠ some .directory := by
  simp [accepts, and_assoc]

/-- The parent of an entry is a directory. -/
theorem lookup_dropLast {t : FileTree} {loc : Location} (h : t.lookup loc ≠ none) :
    t.lookup loc.dropLast = some .directory := by
  by_cases hl : loc = []
  · subst hl; simp
  · obtain ⟨node, hn⟩ := Option.ne_none_iff_exists'.mp h
    rcases (t.closed _ ((lookup_eq_some_iff hl).mp hn)).2 with hp | hp
    · simp only at hp; rw [hp]; simp
    · by_cases hd : loc.dropLast = []
      · rw [hd]; simp
      · exact (lookup_eq_some_iff hd).mpr hp

/-! ## Changes -/

/-- Put a node at a location. Nothing happens where it is not accepted. -/
def put (t : FileTree) (loc : Location) (node : Node) : FileTree :=
  if h : t.accepts loc = true then
    { entries := (loc, node) :: t.entries.filter fun e => e.1 != loc
      nodup := by
        rw [List.map_cons, List.nodup_cons]
        constructor
        · simp
        · exact (List.filter_sublist.map Prod.fst).nodup t.nodup
      closed := by
        obtain ⟨hl, hp, hn⟩ := accepts_iff.mp h
        intro e he
        rcases List.mem_cons.mp he with he | he
        · subst he
          refine ⟨hl, ?_⟩
          by_cases hd : loc.dropLast = []
          · exact Or.inl hd
          · right
            refine List.mem_cons_of_mem _ (List.mem_filter.mpr
              ⟨(lookup_eq_some_iff hd).mp hp, ?_⟩)
            simp only [bne_iff_ne, ne_eq]
            intro heq
            have := congrArg List.length heq
            rw [List.length_dropLast] at this
            have := List.length_pos_iff.mpr hl
            omega
        · obtain ⟨hm, _⟩ := List.mem_filter.mp he
          refine ⟨(t.closed e hm).1, ?_⟩
          rcases (t.closed e hm).2 with hd | hd
          · exact Or.inl hd
          · right
            refine List.mem_cons_of_mem _ (List.mem_filter.mpr ⟨hd, ?_⟩)
            simp only [bne_iff_ne, ne_eq]
            rintro rfl
            have hne : e.1.dropLast ≠ [] := hl
            exact hn ((lookup_eq_some_iff hne).mpr hd) }
  else t

/-- Remove what stands at a location, unless it is a directory. -/
def erase (t : FileTree) (loc : Location) : FileTree :=
  if h : t.lookup loc ≠ some .directory then
    { entries := t.entries.filter fun e => e.1 != loc
      nodup := (List.filter_sublist.map Prod.fst).nodup t.nodup
      closed := by
        intro e he
        obtain ⟨hm, _⟩ := List.mem_filter.mp he
        refine ⟨(t.closed e hm).1, ?_⟩
        rcases (t.closed e hm).2 with hd | hd
        · exact Or.inl hd
        · by_cases hne : e.1.dropLast = []
          · exact Or.inl hne
          · right
            refine List.mem_filter.mpr ⟨hd, ?_⟩
            simp only [bne_iff_ne, ne_eq]
            rintro rfl
            exact h ((lookup_eq_some_iff hne).mpr hd) }
  else t

/-- Remove a location and everything below it. -/
def prune (t : FileTree) (loc : Location) : FileTree :=
  { entries := t.entries.filter fun e => !loc.isPrefixOf e.1
    nodup := (List.filter_sublist.map Prod.fst).nodup t.nodup
    closed := by
      intro e he
      obtain ⟨hm, hk⟩ := List.mem_filter.mp he
      refine ⟨(t.closed e hm).1, ?_⟩
      rcases (t.closed e hm).2 with hd | hd
      · exact Or.inl hd
      · right
        refine List.mem_filter.mpr ⟨hd, ?_⟩
        simp only [Bool.not_eq_true', Bool.eq_false_iff, ne_eq, List.isPrefixOf_iff_prefix] at hk ⊢
        exact fun hpre => hk (hpre.trans (List.dropLast_prefix _)) }

/-! ## What the changes do to the view -/

/-- A node that was put where it is accepted is there. -/
theorem lookup_put_self {t : FileTree} {loc : Location} (h : t.accepts loc = true) (node : Node) :
    (t.put loc node).lookup loc = some node := by
  have hl := (accepts_iff.mp h).1
  rw [lookup_eq_some_iff hl]
  simp [put, h]

/-- Removing the entry of another location does not change what is found. -/
theorem find?_filter_ne {loc other : Location} (h : other ≠ loc) (l : List (Location × Node)) :
    ((l.filter fun e => e.1 != loc).find? fun e => e.1 == other)
      = l.find? fun e => e.1 == other := by
  induction l with
  | nil => rfl
  | cons e l ih =>
    by_cases he : e.1 = loc
    · simp [he, ih, Ne.symm h]
    · simp [he, List.find?_cons, ih]

/-- Putting a node changes nothing elsewhere. -/
theorem lookup_put_of_ne {t : FileTree} {loc other : Location} (h : other ≠ loc) (node : Node) :
    (t.put loc node).lookup other = t.lookup other := by
  unfold put
  split
  · have hne : ((loc, node).1 == other) = false := beq_eq_false_iff_ne.mpr (Ne.symm h)
    simp only [lookup, List.find?_cons, hne, find?_filter_ne h]
  · rfl

/-- Where it is not accepted, nothing happens. -/
theorem put_of_not_accepts {t : FileTree} {loc : Location} (h : t.accepts loc = false)
    (node : Node) : t.put loc node = t := by
  simp [put, h]

/-! ## Listing -/

/-- The names in a directory. -/
def names (t : FileTree) (loc : Location) : List String :=
  t.entries.filterMap fun e => if e.1.dropLast = loc then e.1.getLast? else none

/-- Everything below a location, relative to it. -/
def below (t : FileTree) (loc : Location) : List (Location × Node) :=
  t.entries.filterMap fun e =>
    if loc.isPrefixOf e.1 && e.1 != loc then some (e.1.drop loc.length, e.2) else none

/-- Locations in the order of a listing: a directory before what it holds, the names in a
directory in the order of their bytes. -/
def locationLe (a b : Location) : Bool := (compare a b).isLE

/-- Everything below a location, relative to it, in the order of a listing. -/
def listing (t : FileTree) (loc : Location) : List (Location × Node) :=
  (t.below loc).mergeSort fun a b => locationLe a.1 b.1

end FileTree

end ObjectStore
