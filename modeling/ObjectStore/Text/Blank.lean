/-!
# Blank characters

The characters with the Unicode property White_Space, and the two operations defined by them:
trimming a text at both ends (`Text.trim`) and splitting it into words (`Text.words`).

A trimmed text stays as it is when trimmed again (`trimmed_trimmed`), and trimming brings in no
character (`mem_of_mem_trimmed`) and takes away none but blanks (`mem_trimmed`). What stands in
front of a blank and holds none is the first word (`words_append`).
-/

namespace ObjectStore.Text

/-- A character with the property White_Space. -/
def isBlank (c : Char) : Bool :=
  let n := c.toNat
  (9 ≤ n && n ≤ 13) || n == 0x20 || n == 0x85 || n == 0xA0 || n == 0x1680
    || (0x2000 ≤ n && n ≤ 0x200A) || n == 0x2028 || n == 0x2029 || n == 0x202F || n == 0x205F
    || n == 0x3000

/-- Drop the blanks in front. -/
def trimFront (l : List Char) : List Char := l.dropWhile isBlank

/-- Drop the blanks at both ends. -/
def trimmed (l : List Char) : List Char := (trimFront (trimFront l).reverse).reverse

/-- Drop the blanks behind. -/
def trimBack (l : List Char) : List Char := (trimFront l.reverse).reverse

/-- A text without the blanks at its two ends. -/
def trim (s : String) : String := String.ofList (trimmed s.toList)

/-- Trimming the front again changes nothing. -/
theorem trimFront_trimFront (l : List Char) : trimFront (trimFront l) = trimFront l := by
  induction l with
  | nil => rfl
  | cons c l ih =>
    unfold trimFront at *
    by_cases h : isBlank c = true
    · simp only [List.dropWhile_cons, h, if_true, ih]
    · simp [h]

/-- Trimming the front changes nothing exactly if there is no blank in front. -/
theorem trimFront_eq_self_iff {l : List Char} :
    trimFront l = l ↔ ∀ c ∈ l.head?, isBlank c = false := by
  cases l with
  | nil => simp [trimFront]
  | cons c l =>
    by_cases h : isBlank c = true
    · simp only [trimFront, List.dropWhile_cons, h, if_true, List.head?_cons, Option.mem_def,
        Option.some.injEq, forall_eq', Bool.true_eq_false, iff_false]
      intro he
      have := (List.dropWhile_sublist isBlank (l := l)).length_le
      rw [he, List.length_cons] at this
      omega
    · simp [trimFront, h]

/-- No blank is in front of what was trimmed there. -/
theorem head?_trimFront {l : List Char} : ∀ c ∈ (trimFront l).head?, isBlank c = false :=
  trimFront_eq_self_iff.mp (trimFront_trimFront l)

/-- A trimmed text stays as it is. -/
theorem trimmed_trimmed (l : List Char) : trimmed (trimmed l) = trimmed l := by
  have hfront : trimFront (trimmed l) = trimmed l := by
    rw [trimFront_eq_self_iff]
    intro c hc
    have hsuf : trimFront (trimFront l).reverse <:+ (trimFront l).reverse :=
      List.dropWhile_suffix _
    have hpre : trimmed l <+: trimFront l := by
      have := List.reverse_prefix.mpr hsuf
      rwa [List.reverse_reverse] at this
    obtain ⟨t, ht⟩ := hpre
    apply head?_trimFront (l := l)
    rw [← ht]
    cases hm : trimmed l with
    | nil => rw [hm] at hc; cases hc
    | cons d m => rw [hm] at hc; simpa using hc
  have hback : trimFront (trimmed l).reverse = (trimmed l).reverse := by
    unfold trimmed
    rw [List.reverse_reverse, trimFront_trimFront]
  unfold trimmed at *
  rw [hfront, hback]
  simp

/-- Trimming brings in no character. -/
theorem mem_of_mem_trimmed {c : Char} {l : List Char} (h : c ∈ trimmed l) : c ∈ l := by
  unfold trimmed trimFront at h
  have h := (List.dropWhile_sublist isBlank).subset (List.mem_reverse.mp h)
  exact (List.dropWhile_sublist isBlank).subset (List.mem_reverse.mp h)

/-- Trimming the front loses no character but blanks. -/
theorem mem_trimFront {c : Char} {l : List Char} (hblank : isBlank c = false) (h : c ∈ l) :
    c ∈ trimFront l := by
  induction l with
  | nil => cases h
  | cons d l ih =>
    unfold trimFront at ih ⊢
    by_cases hd : isBlank d = true
    · rw [List.dropWhile_cons_of_pos hd]
      rcases List.mem_cons.mp h with rfl | h
      · rw [hblank] at hd
        cases hd
      · exact ih h
    · rwa [List.dropWhile_cons_of_neg hd]

/-- Trimming takes away none but blanks. -/
theorem mem_trimmed {c : Char} {l : List Char} (hblank : isBlank c = false) (h : c ∈ l) :
    c ∈ trimmed l := by
  unfold trimmed
  rw [List.mem_reverse]
  apply mem_trimFront hblank
  rw [List.mem_reverse]
  exact mem_trimFront hblank h

/-- A text without blanks at its ends stays as it is. -/
theorem trimmed_eq_self {l : List Char} (hfront : ∀ c ∈ l.head?, isBlank c = false)
    (hback : ∀ c ∈ l.getLast?, isBlank c = false) : trimmed l = l := by
  have hreverse : trimFront l.reverse = l.reverse :=
    trimFront_eq_self_iff.mpr (by rwa [List.head?_reverse])
  rw [trimmed, trimFront_eq_self_iff.mpr hfront, hreverse, List.reverse_reverse]

/-- Trimming the back changes nothing exactly if there is no blank behind. -/
theorem trimBack_eq_self_iff {l : List Char} :
    trimBack l = l ↔ ∀ c ∈ l.getLast?, isBlank c = false := by
  rw [← List.head?_reverse, ← trimFront_eq_self_iff, trimBack, List.reverse_eq_iff]

/-- Trimming the back again changes nothing. -/
theorem trimBack_trimBack (l : List Char) : trimBack (trimBack l) = trimBack l := by
  rw [trimBack, trimBack, List.reverse_reverse, trimFront_trimFront]

/-- Trimming the back brings in no character. -/
theorem mem_of_mem_trimBack {c : Char} {l : List Char} (h : c ∈ trimBack l) : c ∈ l :=
  List.mem_reverse.mp ((List.dropWhile_sublist isBlank).subset (List.mem_reverse.mp h))

/-- What comes behind a text that neither starts nor ends with a blank is trimmed behind alone. -/
theorem trimmed_append {front : List Char} (hne : front ≠ [])
    (hfront : ∀ c ∈ front.head?, isBlank c = false)
    (hback : ∀ c ∈ front.getLast?, isBlank c = false) (l : List Char) :
    trimmed (front ++ l) = front ++ trimBack l := by
  have hstart : trimFront (front ++ l) = front ++ l := by
    obtain ⟨c, rest, rfl⟩ := List.exists_cons_of_ne_nil hne
    exact trimFront_eq_self_iff.mpr hfront
  have hend : trimFront front.reverse = front.reverse := by
    rw [trimFront_eq_self_iff, List.head?_reverse]
    exact hback
  rw [trimmed, hstart, List.reverse_append, trimBack]
  unfold trimFront at hend ⊢
  rw [List.dropWhile_append]
  split
  · rename_i hempty
    rw [hend, List.isEmpty_iff.mp hempty, List.reverse_reverse, List.reverse_nil, List.append_nil]
  · rw [List.reverse_append, List.reverse_reverse]

/-- Behind a text with no blank at its ends, trimming is trimming the back. -/
theorem trim_append {front : String} {first last : Char} (hfirst : front.toList.head? = some first)
    (hlast : front.toList.getLast? = some last) (hfront : isBlank first = false)
    (hback : isBlank last = false) (s : String) :
    trim (front ++ s) = front ++ String.ofList (trimBack s.toList) := by
  have hne : front.toList ≠ [] := by
    intro hnil
    rw [hnil] at hfirst
    cases hfirst
  have hhead : ∀ c ∈ front.toList.head?, isBlank c = false := by
    rw [hfirst]
    rintro c ⟨⟩
    exact hfront
  have hend : ∀ c ∈ front.toList.getLast?, isBlank c = false := by
    rw [hlast]
    rintro c ⟨⟩
    exact hback
  rw [trim, String.toList_append, trimmed_append hne hhead hend, String.ofList_append,
    String.ofList_toList]

/-- A blank in front of a text is dropped. -/
theorem trimmed_cons {c : Char} (h : isBlank c = true) (l : List Char) :
    trimmed (c :: l) = trimmed l := by
  have hfront : trimFront (c :: l) = trimFront l := by simp [trimFront, h]
  rw [trimmed, hfront, trimmed]

/-- A blank behind a text is dropped. -/
theorem trimmed_concat {c : Char} (h : isBlank c = true) (l : List Char) :
    trimmed (l ++ [c]) = trimmed l := by
  unfold trimmed trimFront
  rw [List.dropWhile_append]
  split
  · rename_i hempty
    rw [List.isEmpty_iff] at hempty
    simp [hempty, h]
  · rw [List.reverse_append, List.reverse_singleton, List.singleton_append,
      List.dropWhile_cons_of_pos h]

/-! ### Words -/

/-- The words after `word`, whose characters are read backwards so far. -/
def wordsFrom (word : List Char) : List Char → List (List Char)
  | [] => if word.isEmpty then [] else [word.reverse]
  | c :: rest =>
    if isBlank c then
      if word.isEmpty then wordsFrom [] rest else word.reverse :: wordsFrom [] rest
    else wordsFrom (c :: word) rest

/-- The longest stretches without blanks, in order. -/
def words (l : List Char) : List (List Char) := wordsFrom [] l

/-- Characters that are no blanks belong to the word that was begun. -/
theorem wordsFrom_append {a : List Char} (h : ∀ c ∈ a, isBlank c = false) (word rest : List Char) :
    wordsFrom word (a ++ rest) = wordsFrom (a.reverse ++ word) rest := by
  induction a generalizing word with
  | nil => rfl
  | cons c a ih =>
    have hc : isBlank c = false := h c List.mem_cons_self
    rw [List.cons_append, wordsFrom, if_neg (by simp [hc]),
      ih fun d hd => h d (List.mem_cons_of_mem c hd)]
    simp

/-- A text without blanks is a single word. -/
theorem words_eq_singleton {a : List Char} (h : ∀ c ∈ a, isBlank c = false) (hne : a ≠ []) :
    words a = [a] := by
  have hwords := wordsFrom_append h [] []
  rw [List.append_nil, List.append_nil] at hwords
  rw [words, hwords, wordsFrom, if_neg (by simp [hne]), List.reverse_reverse]

/-- What stands in front of a blank and holds none is the first word. -/
theorem words_append {a : List Char} (h : ∀ c ∈ a, isBlank c = false) (hne : a ≠ []) {c : Char}
    (hc : isBlank c = true) (rest : List Char) : words (a ++ c :: rest) = a :: words rest := by
  rw [words, wordsFrom_append h, List.append_nil, wordsFrom, if_pos hc, if_neg (by simp [hne]),
    List.reverse_reverse, words]

end ObjectStore.Text
