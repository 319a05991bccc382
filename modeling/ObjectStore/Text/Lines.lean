/-!
# Lines

A line ends at a line feed, which does not belong to it, nor does one carriage return right
before that line feed. What follows the last line feed is a line too unless it is empty, and it
keeps a carriage return at its end.

`Text.lines` is stated for any type of character, because listings are read as bytes and
messages as text.
-/

namespace ObjectStore.Text

variable {α : Type} [BEq α]

/-- Drop one carriage return from a line that is held backwards. -/
def dropReturn (ret : α) : List α → List α
  | c :: line => if c == ret then line else c :: line
  | [] => []

/-- The lines from here on, when `line` holds the current one backwards. -/
def linesFrom (feed ret : α) (line : List α) : List α → List (List α)
  | [] => if line.isEmpty then [] else [line.reverse]
  | c :: rest =>
    if c == feed then (dropReturn ret line).reverse :: linesFrom feed ret [] rest
    else linesFrom feed ret (c :: line) rest

/-- The lines of a sequence, for the given line feed and carriage return. -/
def lines (feed ret : α) (l : List α) : List (List α) := linesFrom feed ret [] l

/-- A line of a text as it is read when a line feed follows it. -/
def withoutReturn (line : List Char) : List Char := (dropReturn '\r' line.reverse).reverse

/-- The lines of a text. -/
def textLines (l : List Char) : List (List Char) := lines '\n' '\r' l

/-- Lines joined with a line feed between each two of them. -/
def joinLines (ls : List (List Char)) : List Char := List.intercalate ['\n'] ls

/-- A sequence without line feeds, followed by one, starts with that line. -/
theorem linesFrom_append (feed ret : α) [LawfulBEq α] :
    ∀ (a line rest : List α), feed ∉ a →
      linesFrom feed ret line (a ++ feed :: rest) =
        (dropReturn ret (a.reverse ++ line)).reverse :: linesFrom feed ret [] rest
  | [], line, rest, _ => by simp [linesFrom]
  | c :: a, line, rest, h => by
    have hc : (c == feed) = false := by
      simp only [List.mem_cons, not_or] at h
      simpa using fun heq : c = feed => h.1 heq.symm
    have ih := linesFrom_append feed ret a (c :: line) rest (fun hm => h (List.mem_cons_of_mem _ hm))
    simp only [List.cons_append, linesFrom, hc, List.reverse_cons, List.append_assoc,
      List.cons_append, List.nil_append] at ih ⊢
    simpa using ih

/-- A line that does not end in a carriage return keeps all it has. -/
theorem dropReturn_reverse {ret : α} [LawfulBEq α] {line : List α}
    (h : line.getLast? ≠ some ret) : (dropReturn ret line.reverse).reverse = line := by
  rw [← List.head?_reverse] at h
  cases hline : line.reverse with
  | nil => exact (List.reverse_eq_nil_iff.mp hline).symm
  | cons c back =>
    rw [hline, List.head?_cons, ne_eq, Option.some.injEq] at h
    rw [dropReturn, if_neg (by simpa using h), ← hline, List.reverse_reverse]

/-- A line that does not end in a carriage return stays as it is. -/
theorem withoutReturn_eq_self {line : List Char} (h : line.getLast? ≠ some '\r') :
    withoutReturn line = line :=
  dropReturn_reverse h

/-- A line that ends in a carriage return loses it. -/
theorem withoutReturn_concat (line : List Char) : withoutReturn (line ++ ['\r']) = line := by
  simp [withoutReturn, dropReturn]

/-- A line does not get longer without its carriage return. -/
theorem length_withoutReturn_le (line : List Char) :
    (withoutReturn line).length ≤ line.length := by
  by_cases h : line.getLast? = some '\r'
  · obtain ⟨front, rfl⟩ := List.getLast?_eq_some_iff.mp h
    rw [withoutReturn_concat, List.length_append]
    exact Nat.le_add_right _ _
  · exact Nat.le_of_eq (congrArg List.length (withoutReturn_eq_self h))

/-- A carriage return is dropped from what comes last. -/
theorem withoutReturn_append {front : List Char} (h : front.getLast? ≠ some '\r')
    (line : List Char) : withoutReturn (front ++ line) = front ++ withoutReturn line := by
  rcases List.eq_nil_or_concat line with rfl | ⟨line, c, rfl⟩
  · rw [List.append_nil, withoutReturn_eq_self h]
    exact (List.append_nil front).symm
  · rw [List.concat_eq_append]
    by_cases hc : c = '\r'
    · rw [hc, withoutReturn_concat, ← List.append_assoc, withoutReturn_concat]
    · have hlast : ∀ l : List Char, (l ++ [c]).getLast? ≠ some '\r' := by
        simpa using hc
      rw [withoutReturn_eq_self (hlast line), ← List.append_assoc, withoutReturn_eq_self (hlast _)]

/-- No line holds a line feed. -/
theorem feed_not_mem_of_mem_linesFrom {feed ret : α} [LawfulBEq α] {l line found : List α}
    (hline : feed ∉ line) (h : found ∈ linesFrom feed ret line l) : feed ∉ found := by
  have hdrop : ∀ line : List α, feed ∉ line → feed ∉ dropReturn ret line := by
    intro line hline
    cases line with
    | nil => exact hline
    | cons c line =>
      rw [dropReturn]
      split
      · exact fun hm => hline (List.mem_cons_of_mem c hm)
      · exact hline
  induction l generalizing line with
  | nil =>
    rw [linesFrom] at h
    split at h
    · cases h
    · rw [List.mem_singleton.mp h, List.mem_reverse]
      exact hline
  | cons c l ih =>
    rw [linesFrom] at h
    split at h
    · rcases List.mem_cons.mp h with rfl | h
      · rw [List.mem_reverse]
        exact hdrop line hline
      · exact ih List.not_mem_nil h
    · rename_i hc
      refine ih ?_ h
      rintro (_ | ⟨_, hm⟩)
      · exact hc (beq_self_eq_true feed)
      · exact hline hm

/-- Lines that each end in a line feed are read as the lines they were, but for a carriage return at
the end of one. -/
theorem lines_flatMap (feed ret : α) [LawfulBEq α] {ls : List (List α)}
    (h : ∀ line ∈ ls, feed ∉ line) :
    lines feed ret (ls.flatMap (· ++ [feed])) =
      ls.map fun line => (dropReturn ret line.reverse).reverse := by
  induction ls with
  | nil => rfl
  | cons line ls ih =>
    have hline : feed ∉ line := h line List.mem_cons_self
    have hrest := ih fun l hl => h l (List.mem_cons_of_mem line hl)
    rw [List.flatMap_cons, List.append_assoc, List.singleton_append, lines,
      linesFrom_append feed ret line [] _ hline, ← lines, hrest, List.append_nil, List.map_cons]

end ObjectStore.Text
