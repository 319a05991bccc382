import ObjectStore.Path
import Mathlib.Tactic.SplitIfs
import Mathlib.Data.List.Basic

/-!
# Paths that continue a path

Everything a repository keeps lies below its root, so every path it uses is the root's text with
more names behind it. `Path.Extends p base names` says that of a path: `p` continues `base` by
`names`, none of which is a step that stays or goes up.

* `Extends.names_eq`: the steps of `p` are those of `base` and then `names`.
* `extends_join` and `Extends.trans`: joining a relative path continues the path it is joined to.
* `Extends.exists_parent`: without its last name, a path still continues the same base.

How the slashes are written does not matter: there may be several in a row, and the base may end
in one.
-/

namespace ObjectStore

/-- Slashes take one byte each. -/
theorem utf8ByteSize_slashes (n : Nat) :
    (String.ofList (List.replicate n '/')).utf8ByteSize = n := by
  induction n with
  | zero => simp
  | succ n ih =>
    have hslash : '/'.utf8Size = 1 := rfl
    rw [List.replicate_succ, String.ofList_cons, String.utf8ByteSize_append,
      String.utf8ByteSize_singleton, ih, hslash, Nat.add_comm]

namespace Path

/-! ## The pieces of a text -/

/-- The pieces of two texts with a slash between them are the pieces of one and of the other. -/
theorem pieces_append_slash (piece a b : List Char) :
    pieces piece (a ++ '/' :: b) = pieces piece a ++ pieces [] b := by
  induction a generalizing piece with
  | nil => cases piece <;> simp [pieces]
  | cons c a ih =>
    rw [List.cons_append, pieces, pieces]
    split_ifs
    · exact ih []
    · rw [ih [], List.cons_append]
    · exact ih (c :: piece)

/-- A slash in front makes no piece. -/
theorem pieces_slash (l : List Char) : pieces [] ('/' :: l) = pieces [] l := by
  simp [pieces]

/-- A text without slashes is a single piece. -/
theorem pieces_of_no_slash (piece : List Char) {l : List Char} (h : '/' ∉ l) :
    pieces piece l
      = if piece.isEmpty && l.isEmpty then [] else [String.ofList (piece.reverse ++ l)] := by
  induction l generalizing piece with
  | nil => cases piece <;> simp [pieces]
  | cons c l ih =>
    have hc : c ≠ '/' := fun hc => h (hc ▸ List.mem_cons_self)
    have hl : '/' ∉ l := fun hl => h (List.mem_cons_of_mem _ hl)
    rw [pieces, if_neg (by simpa using hc), ih (c :: piece) hl]
    simp

/-- Slashes at the end make no piece. -/
theorem pieces_replicate_slash (a : List Char) (n : Nat) :
    pieces [] (a ++ List.replicate n '/') = pieces [] a := by
  induction n with
  | zero => simp
  | succ n ih =>
    rw [List.replicate_succ', ← List.append_assoc, pieces_append_slash, ih]
    simp [pieces]

/-! ## Continuing a path -/

/-- A name that is a step down: it neither stays nor goes up. -/
def IsPlain (name : String) : Prop := name ≠ "." ∧ name ≠ ".."

instance (name : String) : Decidable (IsPlain name) := inferInstanceAs (Decidable (_ ∧ _))

/-- Path `p` is `base` with `names` behind it, each a step down. -/
structure Extends (p base : Path) (names : List String) : Prop where
  exists_tail : ∃ tail : List Char,
    p.text.toList = base.text.toList ++ tail ∧ pieces [] tail = names ∧
      (base.text.toList.getLast? = some '/' ∨ tail.head? = some '/') ∧
      (∃ c, tail.getLast? = some c ∧ c ≠ '/') ∧ '\x00' ∉ tail
  plain : ∀ n ∈ names, IsPlain n

variable {p q base : Path} {names more : List String}

/-- Whether a path starts at the root is seen at its first character. -/
theorem isAbsolute_eq_of_append {tail : List Char} (h : p.text.toList = base.text.toList ++ tail)
    (hbase : base.text ≠ "") : p.isAbsolute = base.isAbsolute := by
  have hne : base.text.toList ≠ [] := fun h => hbase (String.toList_eq_nil_iff.mp h)
  rw [isAbsolute, isAbsolute, h, List.head?_append_of_ne_nil _ hne]

/-- The pieces of a text with more behind it, when there is a slash where they meet. -/
theorem pieces_append {a tail : List Char}
    (h : a.getLast? = some '/' ∨ tail.head? = some '/') :
    pieces [] (a ++ tail) = pieces [] a ++ pieces [] tail := by
  rcases h with h | h
  · obtain ⟨front, rfl⟩ := List.getLast?_eq_some_iff.mp h
    rw [List.append_assoc, List.singleton_append, pieces_append_slash, pieces_append_slash]
    simp [pieces]
  · obtain ⟨rest, rfl⟩ := List.head?_eq_some_iff.mp h
    rw [pieces_append_slash, pieces_slash]

/-- The steps of a path are those of its base and then the names behind that. -/
theorem Extends.names_eq (h : p.Extends base names) :
    p.names = pieces [] base.text.toList ++ names := by
  obtain ⟨tail, htext, rfl, hslash, ⟨c, hlast, hc⟩, -⟩ := h.exists_tail
  have hend : p.text.toList.getLast? = some c := by
    rw [htext, List.getLast?_append, hlast]
    rfl
  rw [Path.names, hend, htext, pieces_append hslash]
  simp [hc]

/-- A path that continues another one is not empty. -/
theorem Extends.text_ne (h : p.Extends base names) : p.text ≠ "" := by
  obtain ⟨tail, htext, -, -, ⟨c, hlast, -⟩, -⟩ := h.exists_tail
  intro hp
  rw [hp] at htext
  rw [(List.append_eq_nil_iff.mp htext.symm).2] at hlast
  cases hlast

/-- A path is longer than the one it continues. -/
theorem Extends.utf8ByteSize_lt (h : p.Extends base names) :
    base.text.utf8ByteSize < p.text.utf8ByteSize := by
  obtain ⟨tail, htext, -, -, ⟨c, hlast, -⟩, -⟩ := h.exists_tail
  have happend : p.text = base.text ++ String.ofList tail := by
    rw [← String.toList_inj, htext, String.toList_append, String.toList_ofList]
  have hne : (String.ofList tail).utf8ByteSize ≠ 0 := by
    rw [ne_eq, String.utf8ByteSize_eq_zero_iff, String.ofList_eq_empty_iff]
    rintro rfl
    cases hlast
  rw [happend, String.utf8ByteSize_append]
  omega

/-- A path continues what the path that it continues does. -/
theorem Extends.trans (h : p.Extends base names) (h' : q.Extends p more) :
    q.Extends base (names ++ more) := by
  obtain ⟨tail, htext, rfl, hslash, ⟨c, hlast, hc⟩, hnul⟩ := h.exists_tail
  obtain ⟨tail', htext', rfl, hslash', ⟨c', hlast', hc'⟩, hnul'⟩ := h'.exists_tail
  have hend : p.text.toList.getLast? = some c := by
    rw [htext, List.getLast?_append, hlast]
    rfl
  have hmeet : tail'.head? = some '/' :=
    hslash'.resolve_left fun h => hc (Option.some.inj (hend ▸ h))
  refine ⟨⟨tail ++ tail', ?_, pieces_append (Or.inr hmeet), ?_, ⟨c', ?_, hc'⟩, ?_⟩, ?_⟩
  · rw [htext', htext, List.append_assoc]
  · refine hslash.imp id fun h => ?_
    rw [List.head?_append, h]
    rfl
  · rw [List.getLast?_append, hlast']
    rfl
  · exact fun h => (List.mem_append.mp h).elim hnul hnul'
  · exact fun n hn => (List.mem_append.mp hn).elim (h.plain n) (h'.plain n)

/-- What stands between a path and a relative one that is joined to it. -/
def separator (p : Path) : String :=
  if p.text.isEmpty || p.text.toList.getLast? == some '/' then "" else "/"

/-- Nothing stands between slashes and what is joined to them. -/
theorem separator_slashes (n : Nat) :
    (⟨String.ofList (List.replicate (n + 1) '/')⟩ : Path).separator = "" := by
  rw [separator, String.toList_ofList, List.replicate_succ', List.getLast?_concat]
  simp

/-- At most one slash stands between a path and what is joined to it. -/
theorem utf8ByteSize_separator_le (p : Path) : p.separator.utf8ByteSize ≤ 1 := by
  rw [separator]
  split_ifs <;> decide

/-- Joining puts the paths in a row, with a slash between them if there has to be one. -/
theorem join_eq (h : q.isAbsolute = false) : p.join q = ⟨p.text ++ p.separator ++ q.text⟩ := by
  rw [join, if_neg (by simp [h]), separator]
  split_ifs
  · rw [String.append_empty]
  · rfl

/-- What follows a joined path is what follows the path that was joined. -/
theorem separator_join {a : Path} (ha : a.isAbsolute = false) (hne : a.text ≠ "") :
    (base.join a).separator = a.separator := by
  have hlist : a.text.toList ≠ [] := fun h => hne (String.toList_eq_nil_iff.mp h)
  rw [join_eq ha]
  simp [separator, hne, List.getLast?_append_of_ne_nil _ hlist]

/-- Joining two relative paths one after the other is joining the path that they make. -/
theorem join_join {a b : Path} (ha : a.isAbsolute = false) (hne : a.text ≠ "")
    (hb : b.isAbsolute = false) :
    (base.join a).join b = base.join ⟨a.text ++ a.separator ++ b.text⟩ := by
  have hab : (⟨a.text ++ a.separator ++ b.text⟩ : Path).isAbsolute = false := by
    have htext : (a.text ++ a.separator ++ b.text).toList
        = a.text.toList ++ (a.separator ++ b.text).toList := by simp
    exact (isAbsolute_eq_of_append htext hne).trans ha
  rw [join_eq hb, separator_join ha hne, join_eq ha, join_eq hab]
  simp [String.append_assoc]

/-- A relative path joined to another one continues it. -/
theorem extends_join (hbase : base.text ≠ "") (hne : q.text ≠ "") (hrelative : q.isAbsolute = false)
    (hlast : q.text.toList.getLast? ≠ some '/') (hnul : '\x00' ∉ q.text.toList)
    (hplain : ∀ n ∈ pieces [] q.text.toList, IsPlain n) :
    (base.join q).Extends base (pieces [] q.text.toList) := by
  have hlist : q.text.toList ≠ [] := fun h => hne (String.toList_eq_nil_iff.mp h)
  obtain ⟨d, hd⟩ : ∃ d, q.text.toList.getLast? = some d := ⟨_, List.getLast?_eq_some_getLast hlist⟩
  have hslash : d ≠ '/' := fun h => hlast (h ▸ hd)
  refine ⟨?_, hplain⟩
  rw [join_eq hrelative, separator]
  by_cases hend : base.text.toList.getLast? = some '/'
  · refine ⟨q.text.toList, ?_, rfl, Or.inl hend, ⟨d, hd, hslash⟩, hnul⟩
    simp [hend]
  · refine ⟨'/' :: q.text.toList, ?_, pieces_slash _, Or.inr rfl, ⟨d, ?_, hslash⟩, ?_⟩
    · simp [hend, hbase]
    · rw [List.getLast?_cons, hd]
      rfl
    · exact fun h => (List.mem_cons.mp h).elim (by decide) hnul

/-- A name that can be given to a file or a directory. -/
def IsName (name : String) : Prop :=
  name ≠ "" ∧ '/' ∉ name.toList ∧ '\x00' ∉ name.toList ∧ IsPlain name

instance (name : String) : Decidable (IsName name) :=
  inferInstanceAs (Decidable (_ ∧ _ ∧ _ ∧ _ ∧ _))

variable {name : String}

/-- A name that does not start with a dot is a step down. -/
theorem isPlain_of_head? (h : name.toList.head? ≠ some '.') : IsPlain name :=
  ⟨fun hname => h (by rw [hname]; rfl), fun hname => h (by rw [hname]; rfl)⟩

/-- A name is a single piece. -/
theorem pieces_of_isName (h : IsName name) : pieces [] name.toList = [name] := by
  rw [pieces_of_no_slash [] h.2.1]
  have : name.toList.isEmpty = false := by simpa using h.1
  simp [this]

/-- A name is a relative path. -/
theorem IsName.isAbsolute_eq (h : IsName name) : (⟨name⟩ : Path).isAbsolute = false := by
  rw [isAbsolute, beq_eq_false_iff_ne]
  exact fun hslash => h.2.1 (List.mem_of_mem_head? hslash)

/-- A path with one name behind it. -/
theorem extends_join_name (hbase : base.text ≠ "") (h : IsName name) :
    (base.join ⟨name⟩).Extends base [name] := by
  rw [← pieces_of_isName h]
  refine extends_join hbase h.1 h.isAbsolute_eq ?_ h.2.2.1 ?_
  · exact fun hslash => h.2.1 (List.mem_of_mem_getLast? hslash)
  · intro n hn
    rw [pieces_of_isName h, List.mem_singleton] at hn
    exact hn ▸ h.2.2.2

/-- A name joined to a path continues what that path continues. -/
theorem Extends.join (h : p.Extends base names) (name : String) (hname : IsName name) :
    (p.join ⟨name⟩).Extends base (names ++ [name]) :=
  h.trans (extends_join_name h.text_ne hname)

/-- A piece that was begun is a piece. -/
theorem pieces_ne_nil {piece l : List Char} (h : piece ≠ []) : pieces piece l ≠ [] := by
  induction l generalizing piece with
  | nil => simp [pieces, h]
  | cons c l ih =>
    rw [pieces]
    split_ifs with hc hempty
    · exact absurd (List.isEmpty_iff.mp hempty) h
    · exact List.cons_ne_nil _ _
    · exact ih (List.cons_ne_nil _ _)

/-- There are no more pieces than characters. -/
theorem length_pieces_le (piece l : List Char) :
    (pieces piece l).length ≤ piece.length + l.length := by
  induction l generalizing piece with
  | nil =>
    cases piece with
    | nil => exact Nat.le_refl 0
    | cons c piece => simp [pieces]
  | cons c l ih =>
    rw [pieces, List.length_cons]
    split_ifs with hc hempty
    · have := ih []
      simp only [List.length_nil] at this
      omega
    · have hpos := List.length_pos_iff.mpr (mt List.isEmpty_iff.mpr hempty)
      have := ih []
      simp only [List.length_nil, List.length_cons] at this ⊢
      omega
    · have := ih (c :: piece)
      simp only [List.length_cons] at this
      omega

/-- There are not more names behind a path than characters. -/
theorem Extends.length_le (h : p.Extends base names) : names.length ≤ p.text.length := by
  obtain ⟨tail, htext, rfl, -, -, -⟩ := h.exists_tail
  have hpieces := length_pieces_le [] tail
  rw [← String.length_toList, htext, List.length_append]
  simp only [List.length_nil] at hpieces
  omega

/-! ## The path without its last name -/

/-- A text whose last piece is a step down has nothing at its end that is dropped. -/
theorem dropTrailing_reverse_append {tail : List Char} {c : Char} (hlast : tail.getLast? = some c)
    (hc : c ≠ '/') (hplain : "." ∉ pieces [] tail) (front : List Char) :
    dropTrailing (tail.reverse ++ front) = tail.reverse ++ front := by
  obtain ⟨init, rfl⟩ := List.getLast?_eq_some_iff.mp hlast
  rw [List.reverse_append, List.reverse_singleton, List.singleton_append, List.cons_append]
  by_cases hdot : c = '.'
  · subst hdot
    cases hinit : init.reverse with
    | nil =>
      rw [List.reverse_eq_nil_iff] at hinit
      subst hinit
      exact absurd (List.mem_singleton.mpr rfl) hplain
    | cons d rest =>
      have hd : d ≠ '/' := by
        rintro rfl
        rw [List.reverse_eq_cons_iff] at hinit
        subst hinit
        rw [List.append_assoc, List.singleton_append, pieces_append_slash] at hplain
        exact hplain (List.mem_append_right _ (List.mem_singleton.mpr rfl))
      unfold dropTrailing
      split <;> simp_all
  · unfold dropTrailing
    split <;> simp_all

/-- Slashes in front of another character are dropped. -/
theorem dropTrailing_replicate_slash (n : Nat) (c : Char) (rest : List Char) :
    dropTrailing (List.replicate n '/' ++ c :: rest) = dropTrailing (c :: rest) := by
  induction n with
  | zero => rfl
  | succ n ih =>
    rw [List.replicate_succ, List.cons_append]
    cases n with
    | zero => rfl
    | succ n =>
      rw [List.replicate_succ, List.cons_append] at ih ⊢
      rw [dropTrailing, ih]

/-- Without its last name and the slashes before that, a text is what came before them. -/
theorem dropTrailing_dropWhile {n : String} {init : List Char} {d : Char} (hn : '/' ∉ n.toList)
    (hlast : init.getLast? = some d) (hd : d ≠ '/') (hplain : "." ∉ pieces [] init) (k : Nat)
    (front : List Char) :
    dropTrailing ((n.toList.reverse ++ (List.replicate (k + 1) '/' ++
      (init.reverse ++ front))).dropWhile (· != '/')) = init.reverse ++ front := by
  have hstop : ∀ a ∈ n.toList.reverse, (a != '/') = true := by
    intro a ha
    rw [bne_iff_ne]
    rintro rfl
    exact hn (List.mem_reverse.mp ha)
  obtain ⟨rest, hrest⟩ := List.getLast?_eq_some_iff.mp hlast
  have hcons : init.reverse ++ front = d :: (rest.reverse ++ front) := by
    rw [hrest]
    simp
  rw [List.dropWhile_append_of_pos hstop, List.replicate_succ, List.cons_append,
    List.dropWhile_cons_of_neg (by simp), ← List.cons_append, ← List.replicate_succ, hcons,
    dropTrailing_replicate_slash, ← hcons]
  exact dropTrailing_reverse_append hlast hd hplain front

/-- A text starts with slashes, and goes on with another character or ends. -/
theorem exists_replicate_slash_append (l : List Char) :
    ∃ k rest, l = List.replicate k '/' ++ rest ∧ rest.head? ≠ some '/' := by
  induction l with
  | nil => exact ⟨0, [], rfl, by simp⟩
  | cons c l ih =>
    by_cases hc : c = '/'
    · obtain ⟨k, rest, rfl, hrest⟩ := ih
      exact ⟨k + 1, rest, by rw [hc, List.replicate_succ, List.cons_append], hrest⟩
    · exact ⟨0, c :: l, rfl, by simpa using hc⟩

/-- A tail of two names or more is a tail of all but the last, slashes and the last name. -/
theorem exists_tail_append {tail : List Char} {names : List String} {n : String} {c : Char}
    (hpieces : pieces [] tail = names ++ [n]) (hlast : tail.getLast? = some c) (hc : c ≠ '/')
    (hne : names ≠ []) :
    ∃ (init : List Char) (d : Char) (k : Nat), init.getLast? = some d ∧ d ≠ '/' ∧
      pieces [] init = names ∧ '/' ∉ n.toList ∧
        tail = init ++ List.replicate (k + 1) '/' ++ n.toList := by
  by_cases hslash : '/' ∈ tail
  · obtain ⟨last, front, hsplit, hnoslash⟩ :=
      List.eq_append_cons_of_mem (List.mem_reverse.mpr hslash)
    obtain ⟨k, back, rfl, hback⟩ := exists_replicate_slash_append front
    have htail : tail = back.reverse ++ List.replicate k '/' ++ '/' :: last.reverse := by
      rw [← List.reverse_reverse tail, hsplit]
      simp
    have hname : pieces [] last.reverse = [String.ofList last.reverse] := by
      have hnil : last ≠ [] := by
        rintro rfl
        rw [htail] at hlast
        simp only [List.reverse_nil, List.getLast?_append, List.getLast?_singleton] at hlast
        exact hc (Option.some.inj hlast).symm
      rw [pieces_of_no_slash [] (by simpa using hnoslash)]
      simp [hnil]
    rw [htail, pieces_append_slash, pieces_replicate_slash, hname] at hpieces
    obtain ⟨rfl, hn⟩ := List.append_inj' hpieces rfl
    rw [List.cons.injEq] at hn
    obtain ⟨d, rest, rfl⟩ : ∃ d rest, back = d :: rest := by
      cases back with
      | nil => exact absurd rfl hne
      | cons d rest => exact ⟨d, rest, rfl⟩
    refine ⟨(d :: rest).reverse, d, k, by simp, fun hd => hback (by simp [hd]), rfl, ?_, ?_⟩
    · rw [← hn.1, String.toList_ofList, List.mem_reverse]
      exact hnoslash
    · rw [htail, ← hn.1, String.toList_ofList, List.replicate_succ']
      simp
  · have hone : (pieces [] tail).length ≤ 1 := by
      rw [pieces_of_no_slash [] hslash]
      split_ifs <;> simp
    rw [hpieces, List.length_append, List.length_singleton] at hone
    exact absurd (List.length_eq_zero_iff.mp (by omega)) hne

/-- Without its last name and the slashes before that, a path is what came before them. -/
theorem parent?_eq {front init : List Char} {n : String} {c d : Char} {k : Nat}
    (htext : p.text.toList = front ++ (init ++ List.replicate (k + 1) '/' ++ n.toList))
    (hinit : init.getLast? = some d) (hd : d ≠ '/') (hn : '/' ∉ n.toList)
    (hlast : (init ++ List.replicate (k + 1) '/' ++ n.toList).getLast? = some c) (hc : c ≠ '/')
    (hdot : "." ∉ pieces [] (init ++ List.replicate (k + 1) '/' ++ n.toList)) :
    p.parent? = some ⟨String.ofList (front ++ init)⟩ := by
  have hinitne : init ≠ [] := by
    rintro rfl
    cases hinit
  have hself : dropTrailing p.text.toList.reverse = p.text.toList.reverse := by
    rw [htext, List.reverse_append]
    exact dropTrailing_reverse_append hlast hc hdot _
  have hback : p.text.toList.reverse = n.toList.reverse ++
      (List.replicate (k + 1) '/' ++ (init.reverse ++ front.reverse)) := by
    rw [htext]
    simp
  have hinitdot : "." ∉ pieces [] init := by
    rw [List.append_assoc, List.replicate_succ, List.cons_append, pieces_append_slash] at hdot
    exact fun hm => hdot (List.mem_append_left _ hm)
  have hparent : dropTrailing (p.text.toList.reverse.dropWhile (· != '/'))
      = init.reverse ++ front.reverse := by
    rw [hback]
    exact dropTrailing_dropWhile hn hinit hd hinitdot k _
  unfold Path.parent?
  rw [hself]
  split
  · rename_i heq
    rw [hback] at heq
    simp at heq
  · rename_i heq
    have hlength := congrArg List.length (hback.symm.trans heq)
    simp only [List.length_append, List.length_replicate, List.length_reverse,
      List.length_singleton] at hlength
    have := List.length_pos_iff.mpr hinitne
    omega
  · rw [hparent, List.reverse_append, List.reverse_reverse, List.reverse_reverse]

/-- Without its last name, a path still continues its base, as long as names are left, and it is no
longer than before. -/
theorem Extends.exists_parent {n : String} (h : p.Extends base (names ++ [n])) (hne : names ≠ []) :
    ∃ q, p.parent? = some q ∧ q.Extends base names ∧
      q.text.utf8ByteSize ≤ p.text.utf8ByteSize := by
  obtain ⟨tail, htext, hpieces, hslash, ⟨c, hlast, hc⟩, hnul⟩ := h.exists_tail
  obtain ⟨init, d, k, hinit, hd, hnames, hn, rfl⟩ := exists_tail_append hpieces hlast hc hne
  have hinitne : init ≠ [] := by
    rintro rfl
    cases hinit
  have hdot : "." ∉ names ++ [n] := fun hm => (h.plain _ hm).1 rfl
  refine ⟨_, parent?_eq htext hinit hd hn hlast hc (hpieces ▸ hdot),
    ⟨⟨init, String.toList_ofList, hnames, ?_, ⟨d, hinit, hd⟩, ?_⟩, ?_⟩, ?_⟩
  · refine hslash.imp id fun h => ?_
    rwa [List.append_assoc, List.head?_append_of_ne_nil _ hinitne] at h
  · exact fun hm => hnul (List.mem_append_left _ (List.mem_append_left _ hm))
  · exact fun m hm => h.plain m (List.mem_append_left _ hm)
  · have happend : p.text = String.ofList (base.text.toList ++ init)
        ++ String.ofList (List.replicate (k + 1) '/' ++ n.toList) := by
      rw [← String.toList_inj, htext, String.toList_append, String.toList_ofList,
        String.toList_ofList, List.append_assoc, List.append_assoc]
    rw [happend, String.utf8ByteSize_append]
    exact Nat.le_add_right _ _

/-- The path of the parent continues the same path by one name less. -/
theorem Extends.parent? {n : String} (h : p.Extends base (names ++ [n])) (hne : names ≠ []) :
    ∃ q, p.parent? = some q ∧ q.Extends base names := by
  obtain ⟨q, hq, hextends, -⟩ := h.exists_parent hne
  exact ⟨q, hq, hextends⟩

end Path

end ObjectStore
