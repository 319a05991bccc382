import ObjectStore.Proofs.BranchName

/-!
# The grammar of branch names

The rules for branch names are checked on single characters, on pairs of neighbours and at the two
ends of a name. What they come to is a grammar of the parts between slashes, none of which may start
with a dot: `BranchName.IsWellFormed`.

* `hasPair_iff`: two characters are neighbours in a text exactly if they are a stretch of it.
* `forall_mem_splitOn_iff`: no part starts with a dot exactly if the text does not and no slash is
  followed by one.
* `isValid_iff_isWellFormed`: both ways of stating the rules accept the same names.
* `components_eq_steps`: the steps that a name takes as a path are its parts, the empty ones left
  out.
-/

namespace ObjectStore.BranchName

/-! ## Neighbours -/

/-- Two characters stand next to each other exactly if they are a stretch of the text. -/
theorem hasPair_iff {a b : Char} {l : List Char} : hasPair a b l = true ↔ [a, b] <:+: l := by
  fun_induction hasPair a b l with
  | case1 c d rest ih =>
    have hfront : [a, b] <+: c :: d :: rest ↔ c = a ∧ d = b := by
      rw [List.cons_prefix_cons, List.cons_prefix_cons, and_iff_left List.nil_prefix, eq_comm,
        eq_comm (a := b)]
    rw [Bool.or_eq_true, ih, Bool.and_eq_true, beq_iff_eq, beq_iff_eq, ← hfront]
    exact List.infix_cons_iff.symm
  | case2 l hl =>
    have hshort : l.length < 2 := by
      cases l with
      | nil => exact Nat.zero_lt_two
      | cons c l =>
        cases l with
        | nil => exact Nat.one_lt_two
        | cons d rest => exact (hl c d rest rfl).elim
    exact iff_of_false Bool.false_ne_true fun hinfix =>
      absurd hinfix.length_le (Nat.not_le.mpr hshort)

/-- A pair is missing from a sequence exactly if it is nowhere in it as a window. -/
theorem hasPair_eq_false_iff {a b : Char} {l : List Char} :
    hasPair a b l = false ↔ ¬ [a, b] <:+: l := by
  rw [← hasPair_iff, Bool.not_eq_true]

/-! ## Parts between slashes -/

/-- A text and its first part start alike, unless the text starts with a slash. -/
theorem head?_eq_dot_iff {l part : List Char} {parts : List (List Char)}
    (h : l.splitOn '/' = part :: parts) : part.head? = some '.' ↔ l.head? = some '.' := by
  cases l with
  | nil =>
    rw [List.splitOn_nil, List.cons.injEq] at h
    rw [← h.1]
  | cons c l =>
    obtain ⟨first, rest, hl⟩ := List.exists_cons_of_ne_nil (List.splitOn_ne_nil '/' l)
    rw [List.splitOn_cons_eq_if_modifyHead, hl] at h
    split_ifs at h with hc
    · obtain rfl : c = '/' := by simpa using hc
      rw [← (List.cons.inj h).1]
      simp
    · rw [← (List.cons.inj h).1]
      rfl

/-- A part after the first one starts with a dot exactly if a slash is followed by one. -/
theorem forall_mem_tail_splitOn_iff {l part : List Char} {parts : List (List Char)}
    (h : l.splitOn '/' = part :: parts) :
    (∀ p ∈ parts, p.head? ≠ some '.') ↔ hasPair '/' '.' l = false := by
  -- A slash in front of a text makes its first part a later one; any other character stays with the
  -- first part, and the later ones are what they were.
  induction l generalizing part parts with
  | nil =>
    rw [List.splitOn_nil, List.cons.injEq] at h
    rw [← h.2]
    simp [hasPair]
  | cons c l ih =>
    obtain ⟨first, rest, hl⟩ := List.exists_cons_of_ne_nil (List.splitOn_ne_nil '/' l)
    have hrest := ih hl
    rw [List.splitOn_cons_eq_if_modifyHead, hl] at h
    have hpair : hasPair '/' '.' (c :: l) = false ↔
        ¬ (c = '/' ∧ l.head? = some '.') ∧ hasPair '/' '.' l = false := by
      cases l with
      | nil => simp [hasPair]
      | cons d l => simp [hasPair]
    rw [hpair, ← hrest]
    split_ifs at h with hc
    · obtain rfl : c = '/' := by simpa using hc
      rw [← (List.cons.inj h).2, List.forall_mem_cons, ne_eq, head?_eq_dot_iff hl]
      simp
    · have hne : c ≠ '/' := by simpa using hc
      rw [← (List.cons.inj h).2]
      simp [hne]

/-- No part of a text starts with a dot exactly if the text does not and no slash in it is followed
by one. -/
theorem forall_mem_splitOn_iff {l : List Char} :
    (∀ part ∈ l.splitOn '/', part.head? ≠ some '.') ↔
      l.head? ≠ some '.' ∧ hasPair '/' '.' l = false := by
  obtain ⟨part, parts, hl⟩ := List.exists_cons_of_ne_nil (List.splitOn_ne_nil '/' l)
  rw [hl, List.forall_mem_cons, ne_eq, head?_eq_dot_iff hl, forall_mem_tail_splitOn_iff hl]

/-! ## The grammar -/

/-- The characters above the space that have a meaning of their own where branches are named. -/
def specials : List Char := ['*', ':', '?', '[', '\\', '~', '^']

/-- The rules for branch names. -/
structure IsWellFormed (name : String) : Prop where
  nonempty : name ≠ ""
  no_control : ∀ c ∈ name.toList, 0x20 < c.toNat
  no_delete : '\x7f' ∉ name.toList
  no_special : ∀ c ∈ specials, c ∉ name.toList
  no_two_dots : ¬ "..".toList <:+: name.toList
  no_brace : ¬ "@\x7b".toList <:+: name.toList
  no_slash_before : name.toList.head? ≠ some '/'
  no_slash_behind : name.toList.getLast? ≠ some '/'
  no_hidden_part : ∀ part ∈ name.toList.splitOn '/', part.head? ≠ some '.'
  no_guard : ¬ ".lock".toList <:+ name.toList

/-- The characters that are not forbidden. -/
theorem isForbidden_eq_false_iff {c : Char} :
    isForbidden c = false ↔ 0x20 < c.toNat ∧ c ≠ '\x7f' ∧ c ∉ specials := by
  have hdelete : c.toNat = 0x7F ↔ c = '\x7f' := Char.toNat_inj (d := '\x7f')
  simp only [isForbidden, specials, Bool.or_eq_false_iff, decide_eq_false_iff_not, Nat.not_le,
    beq_eq_false_iff_ne, ne_eq, hdelete, List.mem_cons, List.not_mem_nil, or_false, not_or,
    and_assoc]

/-- No character of a text is forbidden exactly if none is a control character or a space, none is
a delete character and none is special. -/
theorem forall_isForbidden_iff {l : List Char} :
    (∀ c ∈ l, isForbidden c = false) ↔
      (∀ c ∈ l, 0x20 < c.toNat) ∧ '\x7f' ∉ l ∧ ∀ c ∈ specials, c ∉ l := by
  simp only [isForbidden_eq_false_iff]
  constructor
  · intro h
    exact ⟨fun c hc => (h c hc).1, fun hc => (h _ hc).2.1 rfl, fun c hspecial hc =>
      (h c hc).2.2 hspecial⟩
  · rintro ⟨hcontrol, hdelete, hspecial⟩ c hc
    refine ⟨hcontrol c hc, ?_, fun hmem => hspecial c hmem hc⟩
    rintro rfl
    exact hdelete hc

/-- The two ways of stating the rules accept the same names. -/
theorem isValid_iff_isWellFormed {name : String} : isValid name = true ↔ IsWellFormed name := by
  rw [valid_iff, forall_isForbidden_iff, hasPair_eq_false_iff, hasPair_eq_false_iff]
  constructor
  · rintro ⟨hne, ⟨hcontrol, hdelete, hspecial⟩, hdots, hbrace, hdot, hpair, hbefore, hbehind,
      hguard⟩
    exact ⟨hne, hcontrol, hdelete, hspecial, hdots, hbrace, hbefore, hbehind,
      forall_mem_splitOn_iff.mpr ⟨hdot, hpair⟩, hguard⟩
  · intro h
    obtain ⟨hdot, hpair⟩ := forall_mem_splitOn_iff.mp h.no_hidden_part
    exact ⟨h.nonempty, ⟨h.no_control, h.no_delete, h.no_special⟩, h.no_two_dots, h.no_brace, hdot,
      hpair, h.no_slash_before, h.no_slash_behind, h.no_guard⟩

/-- A text is accepted as a branch name exactly if it keeps the rules, and then it is that name. -/
theorem parse_eq_ok_iff_isWellFormed {name : String} {branch : BranchName} :
    parse name = .ok branch ↔ branch.name = name ∧ IsWellFormed name := by
  rw [parse_eq_ok_iff]
  constructor
  · rintro rfl
    exact ⟨rfl, isValid_iff_isWellFormed.mp branch.valid⟩
  · exact fun h => h.1.symm

/-- No part of a branch name is a step that stays or goes up. -/
theorem IsWellFormed.ne_dot {name : String} (h : IsWellFormed name) {part : List Char}
    (hpart : part ∈ name.toList.splitOn '/') : part ≠ ".".toList ∧ part ≠ "..".toList := by
  have hhead := h.no_hidden_part part hpart
  constructor
  · rintro rfl
    exact hhead rfl
  · rintro rfl
    exact hhead rfl

/-! ## Parts as steps -/

/-- The pieces of a text are its parts between slashes, the empty ones left out. -/
theorem pieces_eq (piece l : List Char) :
    Path.pieces piece l = ((l.splitOnPPrepend (· == '/') piece).filter
      fun part => !part.isEmpty).map String.ofList := by
  induction l generalizing piece with
  | nil => cases piece <;> simp [Path.pieces]
  | cons c l ih =>
    rw [Path.pieces, List.splitOnPPrepend_cons_eq_if]
    split_ifs with hc hempty
    · obtain rfl := List.isEmpty_iff.mp hempty
      rw [ih, List.splitOnPPrepend_nil_right]
      rfl
    · rw [ih, List.splitOnPPrepend_nil_right, List.filter_cons_of_pos (by simpa using hempty),
        List.map_cons]
    · exact ih (c :: piece)

/-- The parts of a text between slashes, the empty ones left out. -/
def steps (name : String) : List String :=
  ((name.toList.splitOn '/').filter fun part => !part.isEmpty).map String.ofList

/-- They are the steps that a branch name takes as a path. -/
theorem components_eq_steps (branch : BranchName) : branch.components = steps branch.name :=
  pieces_eq [] branch.name.toList

end ObjectStore.BranchName
