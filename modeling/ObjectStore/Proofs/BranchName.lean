import ObjectStore.Layout
import ObjectStore.Proofs.Path.Extension

/-!
# Branch names as paths

A branch name is the path of its file below the directory of branches. Its `components` are the
steps of that path: there is at least one (`components_ne_nil`), and each of them is a step down
(`components_plain`), so the file lies below that directory.

Slashes in a row count as one there, so two names may have the same components. Names without an
empty component do not (`eq_of_components_eq`), and in general two names have the same components
exactly if they are the same once every row of slashes is a single one (`collapsed_eq_iff`). Such
names may be as long as one likes (`spread`).
-/

namespace ObjectStore.BranchName

/-- A sequence without a pair in it has none behind its first character. -/
theorem hasPair_tail {a b c : Char} {l : List Char} (h : hasPair a b (c :: l) = false) :
    hasPair a b l = false := by
  cases l with
  | nil => rfl
  | cons d l =>
    rw [hasPair, Bool.or_eq_false_iff] at h
    exact h.2

/-- A sequence without the second character of a pair does not have the pair. -/
theorem hasPair_of_not_mem {a b : Char} {l : List Char} (h : b ∉ l) : hasPair a b l = false := by
  fun_induction hasPair a b l with
  | case1 c d rest ih =>
    have hd : b ∉ d :: rest := List.not_mem_of_not_mem_cons h
    have hne : d ≠ b := (List.ne_of_not_mem_cons hd).symm
    rw [ih hd, beq_false_of_ne hne, Bool.and_false, Bool.or_false]
  | case2 => rfl

/-- No piece of a text starts with a dot, if the text does not and no slash in it is followed by
one. -/
theorem head?_of_mem_pieces {piece l : List Char} {n : String} (hpair : hasPair '/' '.' l = false)
    (hstart : piece = [] → l.head? ≠ some '.') (hpiece : piece.getLast? ≠ some '.')
    (h : n ∈ Path.pieces piece l) : n.toList.head? ≠ some '.' := by
  induction l generalizing piece with
  | nil =>
    rw [Path.pieces] at h
    split_ifs at h
    · cases h
    · rw [List.mem_singleton.mp h]
      simpa using hpiece
  | cons c l ih =>
    have hnext : hasPair '/' '.' l = false := hasPair_tail hpair
    have hafter : c = '/' → l.head? ≠ some '.' := by
      rintro rfl hdot
      obtain ⟨rest, rfl⟩ := List.head?_eq_some_iff.mp hdot
      simp [hasPair] at hpair
    rw [Path.pieces] at h
    split_ifs at h with hc hempty
    · exact ih hnext (fun _ => hafter (by simpa using hc)) (by simp) h
    · rcases List.mem_cons.mp h with rfl | h
      · simpa using hpiece
      · exact ih hnext (fun _ => hafter (by simpa using hc)) (by simp) h
    · refine ih hnext (fun h => absurd h (List.cons_ne_nil _ _)) ?_ h
      cases piece with
      | nil => exact hstart rfl
      | cons d piece => simpa using hpiece

/-- The names of directories and of the file that a branch name is made of. -/
def components (branch : BranchName) : List String := Path.pieces [] branch.name.toList

variable (branch : BranchName)

/-- What every branch name is like. -/
theorem valid_iff (name : String) :
    isValid name = true ↔
      name ≠ "" ∧ (∀ c ∈ name.toList, isForbidden c = false) ∧
        hasPair '.' '.' name.toList = false ∧ hasPair '@' '\x7b' name.toList = false ∧
        name.toList.head? ≠ some '.' ∧ hasPair '/' '.' name.toList = false ∧
        name.toList.head? ≠ some '/' ∧ name.toList.getLast? ≠ some '/' ∧
        ¬ guardEnd <:+ name.toList := by
  simp only [isValid, Bool.and_eq_true, Bool.not_eq_true', bne_iff_ne, List.all_eq_true,
    ← List.isSuffixOf_iff_suffix, Bool.not_eq_true, ne_eq, List.isEmpty_eq_false_iff,
    String.toList_eq_nil_iff, and_assoc]

/-- No component of a name is `.` or `..`, or empty. -/
theorem components_plain : ∀ n ∈ branch.components, Path.IsPlain n := by
  obtain ⟨-, -, -, -, hdot, hpair, -⟩ := (valid_iff branch.name).mp branch.valid
  exact fun n hn => Path.isPlain_of_head? (head?_of_mem_pieces hpair (fun _ => hdot) (by simp) hn)

/-- A name has a component. -/
theorem components_ne_nil : branch.components ≠ [] := by
  obtain ⟨hne, -, -, -, -, -, hslash, -⟩ := (valid_iff branch.name).mp branch.valid
  rw [components]
  cases hname : branch.name.toList with
  | nil => exact absurd (String.toList_eq_nil_iff.mp hname) hne
  | cons c l =>
    rw [hname] at hslash
    rw [Path.pieces, if_neg (by simpa using hslash)]
    exact Path.pieces_ne_nil (List.cons_ne_nil _ _)

/-- The pieces of a text with slashes between them are that text, if no slash in it is at an end or
next to another one. -/
theorem intercalate_pieces {piece l : List Char} (hpair : hasPair '/' '/' l = false)
    (hstart : piece = [] → l.head? ≠ some '/') (hlast : l.getLast? ≠ some '/') :
    List.intercalate ['/'] ((Path.pieces piece l).map String.toList) = piece.reverse ++ l := by
  induction l generalizing piece with
  | nil => cases piece <;> simp [Path.pieces]
  | cons c l ih =>
    have hnext : hasPair '/' '/' l = false := hasPair_tail hpair
    have hlast' : l.getLast? ≠ some '/' := fun h => hlast (by simp [List.getLast?_cons, h])
    rw [Path.pieces]
    split_ifs with hc hempty
    · exact absurd (by simpa using hc) (hstart (List.isEmpty_iff.mp hempty))
    · obtain rfl : c = '/' := by simpa using hc
      have hne : l ≠ [] := by
        rintro rfl
        exact hlast rfl
      have hhead : l.head? ≠ some '/' := by
        intro hslash
        obtain ⟨rest, rfl⟩ := List.head?_eq_some_iff.mp hslash
        simp [hasPair] at hpair
      have hrest := @ih [] hnext (fun _ => hhead) hlast'
      have hpieces : (Path.pieces [] l).map String.toList ≠ [] := by
        intro hnil
        rw [hnil] at hrest
        exact hne hrest.symm
      obtain ⟨first, more, hmore⟩ := List.exists_cons_of_ne_nil hpieces
      rw [List.map_cons, hmore, List.intercalate_cons_cons, ← hmore, hrest, String.toList_ofList]
      simp
    · rw [ih hnext (fun h => absurd h (List.cons_ne_nil _ _)) hlast']
      simp

/-- A branch is its name. -/
theorem eq_of_name_eq {a b : BranchName} (h : a.name = b.name) : a = b := by
  cases a
  cases b
  rwa [mk.injEq]

/-- Names without an empty component are told apart by their components. -/
theorem eq_of_components_eq {a b : BranchName} (ha : hasPair '/' '/' a.name.toList = false)
    (hb : hasPair '/' '/' b.name.toList = false) (h : a.components = b.components) : a = b := by
  have hjoin : ∀ c : BranchName, hasPair '/' '/' c.name.toList = false →
      List.intercalate ['/'] (c.components.map String.toList) = c.name.toList := by
    intro c hc
    obtain ⟨-, -, -, -, -, -, hslash, hlast, -⟩ := (valid_iff c.name).mp c.valid
    exact intercalate_pieces hc (fun _ => hslash) hlast
  have hname : a.name.toList = b.name.toList := by rw [← hjoin a ha, h, hjoin b hb]
  exact eq_of_name_eq (String.toList_inj.mp hname)

/-! ## Slashes in a row -/

/-- A text with every row of slashes in it made a single one. -/
def collapse : List Char → List Char
  | c :: d :: rest => if c = '/' ∧ d = '/' then collapse (d :: rest) else c :: collapse (d :: rest)
  | l => l

/-- Taking slashes in a row for one does not change the first character. -/
@[simp] theorem head?_collapse (l : List Char) : (collapse l).head? = l.head? := by
  fun_induction collapse l with
  | case1 c d rest h ih => rw [ih, List.head?_cons, List.head?_cons, h.1, h.2]
  | case2 => rfl
  | case3 => rfl

/-- Taking slashes in a row for one does not change the last character. -/
@[simp] theorem getLast?_collapse (l : List Char) : (collapse l).getLast? = l.getLast? := by
  fun_induction collapse l with
  | case1 c d rest h ih => rw [ih, List.getLast?_cons_cons]
  | case2 c d rest h ih => rw [List.getLast?_cons, ih, ← List.getLast?_cons]
  | case3 => rfl

/-- No row of slashes is left. -/
theorem hasPair_collapse (l : List Char) : hasPair '/' '/' (collapse l) = false := by
  fun_induction collapse l with
  | case1 c d rest h ih => exact ih
  | case2 c d rest h ih =>
    obtain ⟨rest', hrest'⟩ := List.head?_eq_some_iff.mp (head?_collapse (d :: rest))
    rw [hrest'] at ih ⊢
    rw [hasPair, ih, Bool.or_false, Bool.and_eq_false_imp, beq_iff_eq, beq_eq_false_iff_ne]
    exact fun hc hd => h ⟨hc, hd⟩
  | case3 l hl =>
    cases l with
    | nil => rfl
    | cons c l =>
      cases l with
      | nil => rfl
      | cons d rest => exact (hl c d rest rfl).elim

/-- The pieces between slashes are the same. -/
theorem pieces_collapse (piece l : List Char) :
    Path.pieces piece (collapse l) = Path.pieces piece l := by
  fun_induction collapse l generalizing piece with
  | case1 c d rest h ih =>
    obtain ⟨rfl, rfl⟩ := h
    rw [ih]
    simp [Path.pieces]
  | case2 c d rest h ih => rw [Path.pieces, Path.pieces, ih, ih]
  | case3 => rfl

/-- A branch name with every row of slashes in it made a single one. -/
def collapsed (branch : BranchName) : String := String.ofList (collapse branch.name.toList)

/-- Names have the same components exactly if they are the same once every row of slashes is a
single one. -/
theorem collapsed_eq_iff {a b : BranchName} :
    a.collapsed = b.collapsed ↔ a.components = b.components := by
  rw [collapsed, collapsed, String.ofList_inj]
  constructor
  · intro h
    rw [components, ← pieces_collapse, h, pieces_collapse, components]
  · intro h
    have hjoin : ∀ c : BranchName, List.intercalate ['/'] (c.components.map String.toList)
        = collapse c.name.toList := by
      intro c
      obtain ⟨-, -, -, -, -, -, hslash, hlast, -⟩ := (valid_iff c.name).mp c.valid
      rw [components, ← pieces_collapse]
      refine intercalate_pieces (hasPair_collapse _) (fun _ => ?_) ?_
      · rwa [head?_collapse]
      · rwa [getLast?_collapse]
    rw [← hjoin a, ← hjoin b, h]

/-- The name of the branch `a/b`, with more slashes. -/
def spreadName (n : Nat) : String := String.ofList ('a' :: (List.replicate (n + 1) '/' ++ ['b']))

/-- The characters of the name `a/b`, with more slashes. -/
theorem toList_spreadName (n : Nat) :
    (spreadName n).toList = 'a' :: (List.replicate (n + 1) '/' ++ ['b']) :=
  String.toList_ofList

/-- The name is valid, however many slashes there are. -/
theorem isValid_spreadName (n : Nat) : isValid (spreadName n) = true := by
  have hmem : ∀ c ∈ (spreadName n).toList, c = 'a' ∨ c = '/' ∨ c = 'b' := by
    rw [toList_spreadName]
    simp +contextual
  have hno : ∀ c, c ≠ 'a' → c ≠ '/' → c ≠ 'b' → c ∉ (spreadName n).toList :=
    fun c ha hs hb hc => (hmem c hc).elim ha fun h => h.elim hs hb
  have hdot : '.' ∉ (spreadName n).toList := hno _ (by decide) (by decide) (by decide)
  have hbrace : '\x7b' ∉ (spreadName n).toList := hno _ (by decide) (by decide) (by decide)
  have hk : 'k' ∉ (spreadName n).toList := hno _ (by decide) (by decide) (by decide)
  have hend : (spreadName n).toList.getLast? = some 'b' := by
    rw [toList_spreadName, ← List.cons_append, List.getLast?_concat]
  rw [valid_iff]
  refine ⟨?_, ?_, hasPair_of_not_mem hdot, hasPair_of_not_mem hbrace, ?_,
    hasPair_of_not_mem hdot, ?_, ?_, fun hguard => hk (hguard.mem (by decide))⟩
  · rw [ne_eq, ← String.toList_eq_nil_iff, toList_spreadName]
    exact List.cons_ne_nil _ _
  · intro c hc
    obtain rfl | rfl | rfl := hmem c hc <;> decide
  · simp [toList_spreadName]
  · simp [toList_spreadName]
  · simp [hend]

/-- The branch `a/b`, by a name with more slashes. -/
def spread (n : Nat) : BranchName := ⟨spreadName n, isValid_spreadName n⟩

/-- The branch has the components of `a/b`, however many slashes there are. -/
theorem components_spread (n : Nat) : (spread n).components = ["a", "b"] := by
  have hsplit : (spreadName n).toList = ('a' :: List.replicate n '/') ++ '/' :: ['b'] := by
    rw [toList_spreadName, List.replicate_succ']
    simp
  rw [components, spread, hsplit, Path.pieces_append_slash]
  exact congrArg (· ++ Path.pieces [] ['b']) (Path.pieces_replicate_slash ['a'] n)

/-- The name is as long as one wants. -/
theorem lt_utf8ByteSize_spreadName (n : Nat) : n < (spreadName n).utf8ByteSize := by
  rw [spreadName, String.ofList_cons, String.ofList_append, String.utf8ByteSize_append,
    String.utf8ByteSize_append, utf8ByteSize_slashes]
  omega

/-! ## Reading names -/

variable {branch} in
/-- What is read as a branch name is that name. -/
theorem parse?_eq_some_iff {name : String} : parse? name = some branch ↔ name = branch.name := by
  unfold parse?
  constructor
  · intro h
    split_ifs at h
    cases h
    rfl
  · rintro rfl
    rw [dif_pos branch.valid]

variable {branch} in
/-- A text is read as a branch exactly if it is the name of that branch. -/
theorem parse_eq_ok_iff {name : String} : parse name = .ok branch ↔ name = branch.name := by
  unfold parse parse?
  constructor
  · intro h
    split_ifs at h
    cases h
    rfl
  · rintro rfl
    rw [dif_pos branch.valid]

/-- A text that a front was put to is left without it. -/
theorem dropFront?_append (front text : String) : dropFront? front (front ++ text) = some text := by
  rw [dropFront?, String.toList_append, if_pos]
  · rw [List.drop_left, String.ofList_toList]
  · exact List.isPrefixOf_iff_prefix.mpr (List.prefix_append _ _)

/-- A text that does not start with a front has none to drop. -/
theorem dropFront?_eq_none {front text : String} (h : ¬ front.toList <+: text.toList) :
    dropFront? front text = none := by
  rw [dropFront?, if_neg]
  exact fun hfront => h (List.isPrefixOf_iff_prefix.mp hfront)

/-! ## Below the directory of branches -/

/-- A name is a relative path. -/
theorem isAbsolute_name : (⟨branch.name⟩ : Path).isAbsolute = false := by
  obtain ⟨-, -, -, -, -, -, hslash, -⟩ := (valid_iff branch.name).mp branch.valid
  rwa [Path.isAbsolute, beq_eq_false_iff_ne]

/-- No forbidden character is in a name. -/
theorem not_mem_name_of_isForbidden {c : Char} (h : isForbidden c = true) :
    c ∉ branch.name.toList := by
  obtain ⟨-, hall, -⟩ := (valid_iff branch.name).mp branch.valid
  intro hmem
  rw [hall c hmem] at h
  cases h

/-- No zero byte is in a name, so it can be part of a path. -/
theorem zero_not_mem_name : '\x00' ∉ branch.name.toList :=
  branch.not_mem_name_of_isForbidden (by decide)

/-- The characters of the ref of a branch. -/
theorem toList_ref : (Layout.headsFront ++ branch.name).toList
    = "refs/heads".toList ++ '/' :: branch.name.toList := by
  rw [String.toList_append]
  rfl

/-- The pieces of a ref: two directories, and then the components of the name. -/
theorem pieces_ref : Path.pieces [] (Layout.headsFront ++ branch.name).toList
    = ["refs", "heads"] ++ branch.components := by
  rw [toList_ref, Path.pieces_append_slash]
  rfl

/-- The ref of a branch lies below the directory of branches. -/
theorem extends_join_ref {p : Path} (hp : p.text ≠ "") :
    (p.join ⟨Layout.headsFront ++ branch.name⟩).Extends p
      (["refs", "heads"] ++ branch.components) := by
  obtain ⟨hne, -, -, -, -, -, -, hlast, -⟩ := (valid_iff branch.name).mp branch.valid
  have hlist : branch.name.toList ≠ [] := fun h => hne (String.toList_eq_nil_iff.mp h)
  rw [← branch.pieces_ref]
  refine Path.extends_join hp (by simp [hne]) ?_ ?_ ?_ ?_
  · rw [Path.isAbsolute, toList_ref]
    rfl
  · rwa [String.toList_append, List.getLast?_append_of_ne_nil _ hlist]
  · rw [toList_ref]
    intro h
    rcases List.mem_append.mp h with h | h
    · revert h
      decide
    · exact (List.mem_cons.mp h).elim (by decide) branch.zero_not_mem_name
  · have hfront : ∀ n ∈ ["refs", "heads"], Path.IsPlain n := by decide
    rw [pieces_ref]
    exact fun n hn => (List.mem_append.mp hn).elim (hfront n) (branch.components_plain n)

end ObjectStore.BranchName
