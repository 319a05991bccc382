import Mathlib.Data.List.Basic
import ObjectStore.Commit
import ObjectStore.Proofs.Results
import ObjectStore.Proofs.Separators

/-!
# Blocks of header lines

A commit is a block of lines, a blank line and a message, with nothing escaped. What keeps the block
apart from the message is that no line of it is empty and none holds a line feed (`Text.IsLine`).

* `Text.textLines_joinLines`: joined lines are read as the lines they were, but for a carriage return
  at the end of a line that another one follows.
* `Commit.cutBlankLine_joinLines`: the first blank line after a block is the one that ends it,
  whatever the message holds.
* `Commit.ofText_joinLines`: both together, so reading a commit is taking in its lines one by one.
* `Commit.Partial.take_tree_line` and its companions: what taking in a line of each key does.
-/

namespace ObjectStore

/-! ## Lines -/

namespace Text

/-- A line that can stand in a block of lines: it holds something, but no line feed. -/
def IsLine (line : List Char) : Prop := line ≠ [] ∧ '\n' ∉ line

variable {line last rest : List Char} {lines : List (List Char)}

/-- Without a line feed there is one line. -/
theorem linesFrom_of_not_mem (h : '\n' ∉ line) (read : List Char) (hne : line ≠ []) :
    linesFrom '\n' '\r' read line = [read.reverse ++ line] := by
  induction line generalizing read with
  | nil => exact absurd rfl hne
  | cons c line ih =>
    have hc : c ≠ '\n' := fun heq => h (heq ▸ List.mem_cons_self)
    have hline : '\n' ∉ line := fun hmem => h (List.mem_cons_of_mem _ hmem)
    rw [linesFrom, if_neg (by simpa using hc)]
    cases line with
    | nil => simp [linesFrom]
    | cons d line => rw [ih hline _ (List.cons_ne_nil _ _)]; simp

/-- Lines are joined one after the other. -/
theorem joinLines_cons (line : List Char) (hne : lines ≠ []) :
    joinLines (line :: lines) = line ++ '\n' :: joinLines lines := by
  rw [joinLines, List.intercalate_cons_of_ne_nil hne, List.append_assoc]
  rfl

/-- Joined lines do not start with a line feed. -/
theorem head?_joinLines_append (hlines : ∀ line ∈ lines, IsLine line) (hne : lines ≠ [])
    (rest : List Char) : (joinLines lines ++ rest).head? ≠ some '\n' := by
  cases lines with
  | nil => exact absurd rfl hne
  | cons line lines =>
    obtain ⟨hline, -⟩ := List.forall_mem_cons.mp hlines
    obtain ⟨more, hmore⟩ : ∃ more, joinLines (line :: lines) ++ rest = line ++ more := by
      by_cases hnil : lines = []
      · subst hnil
        exact ⟨rest, by rw [joinLines, List.intercalate_singleton]⟩
      · exact ⟨_, by rw [joinLines_cons line hnil, List.append_assoc]⟩
    rw [hmore, List.head?_append_of_ne_nil _ hline.1]
    intro hfeed
    exact hline.2 (List.mem_of_mem_head? hfeed)

/-- Joined lines are read as they are, but for carriage returns at their ends. The last one keeps
its carriage return. -/
theorem textLines_joinLines (hlines : ∀ line ∈ lines, IsLine line) (hlast : IsLine last) :
    textLines (joinLines (lines ++ [last])) = lines.map withoutReturn ++ [last] := by
  induction lines with
  | nil =>
    rw [List.nil_append, joinLines, List.intercalate_singleton]
    exact linesFrom_of_not_mem hlast.2 [] hlast.1
  | cons line lines ih =>
    obtain ⟨hline, hlines⟩ := List.forall_mem_cons.mp hlines
    have hnext : linesFrom '\n' '\r' [] (joinLines (lines ++ [last]))
        = lines.map withoutReturn ++ [last] := ih hlines
    rw [List.cons_append, joinLines_cons line (by simp), textLines, Text.lines,
      linesFrom_append '\n' '\r' line [] _ hline.2, hnext, List.append_nil]
    rfl

end Text

namespace Commit

open Text

variable {line last rest : List Char} {lines : List (List Char)}

/-! ## The block of headers -/

/-- A character that is no line feed belongs to what stands before the blank line. -/
theorem cutBlankLine_cons {c : Char} (hc : c ≠ '\n') (rest : List Char) :
    cutBlankLine (c :: rest)
      = (cutBlankLine rest).map fun (before, after) => (c :: before, after) := by
  rw [cutBlankLine]
  rintro rest' rfl
  exact absurd rfl hc

/-- A line feed that no other one follows belongs to what stands before the blank line. -/
theorem cutBlankLine_feed (h : rest.head? ≠ some '\n') :
    cutBlankLine ('\n' :: rest)
      = (cutBlankLine rest).map fun (before, after) => ('\n' :: before, after) := by
  rw [cutBlankLine]
  rintro rest' - rfl
  exact h rfl

/-- A blank line does not start in the middle of a line. -/
theorem cutBlankLine_append (h : '\n' ∉ line) (rest : List Char) :
    cutBlankLine (line ++ rest)
      = (cutBlankLine rest).map fun (before, after) => (line ++ before, after) := by
  induction line with
  | nil => simp
  | cons c line ih =>
    have hc : c ≠ '\n' := fun heq => h (heq ▸ List.mem_cons_self)
    have hline : '\n' ∉ line := fun hmem => h (List.mem_cons_of_mem _ hmem)
    rw [List.cons_append, cutBlankLine_cons hc, ih hline, Option.map_map]
    rfl

/-- A block of lines ends at the first blank line, if none of the lines is blank. -/
theorem cutBlankLine_joinLines (hlines : ∀ line ∈ lines, IsLine line) (hne : lines ≠ [])
    (message : List Char) :
    cutBlankLine (joinLines lines ++ '\n' :: '\n' :: message)
      = some (joinLines lines, message) := by
  induction lines with
  | nil => exact absurd rfl hne
  | cons line lines ih =>
    obtain ⟨hline, hlines⟩ := List.forall_mem_cons.mp hlines
    by_cases hnil : lines = []
    · subst hnil
      rw [joinLines, List.intercalate_singleton, cutBlankLine_append hline.2, cutBlankLine]
      simp
    · have hhead := head?_joinLines_append hlines hnil ('\n' :: '\n' :: message)
      rw [joinLines_cons line hnil, List.append_assoc, List.cons_append,
        cutBlankLine_append hline.2, cutBlankLine_feed hhead, ih hlines hnil]
      rfl

/-- A text of header lines, a blank line and a message is read line by line. -/
theorem ofText_joinLines (hlines : ∀ line ∈ lines, IsLine line) (hlast : IsLine last)
    (message : List Char) :
    ofText (joinLines (lines ++ [last]) ++ '\n' :: '\n' :: message)
      = ((lines.map withoutReturn ++ [last]).foldlM Partial.take {} >>= fun p =>
          (p.finish message).mapError fun fault => .malformed (.commit fault)) := by
  have hall : ∀ line ∈ lines ++ [last], IsLine line := by
    intro line hline
    rcases List.mem_append.mp hline with hline | hline
    · exact hlines line hline
    · exact List.mem_singleton.mp hline ▸ hlast
  unfold ofText
  rw [cutBlankLine_joinLines hall (by simp) message]
  simp only [Option.elim_some, ok_bind, textLines_joinLines hlines hlast]

/-! ## Taking in a line -/

namespace Partial

variable (p : Partial) (value : List Char)

/-- What the line of the tree sets. -/
theorem take_tree_line : p.take (['t', 'r', 'e', 'e'] ++ ' ' :: value)
    = (headerId value).map fun id => { p with tree := some id } := by
  rw [take, if_neg (by simp), cutAt?_append (by decide)]
  rfl

/-- What the line of a parent adds. -/
theorem take_parent_line : p.take (['p', 'a', 'r', 'e', 'n', 't'] ++ ' ' :: value)
    = (headerId value).map fun id => { p with parents := id :: p.parents } := by
  rw [take, if_neg (by simp), cutAt?_append (by decide)]
  rfl

/-- What the line of the author sets. -/
theorem take_author_line : p.take (['a', 'u', 't', 'h', 'o', 'r'] ++ ' ' :: value)
    = (headerSignature value).map fun s => { p with author := some s } := by
  rw [take, if_neg (by simp), cutAt?_append (by decide)]
  rfl

/-- What the line of the committer sets. -/
theorem take_committer_line :
    p.take (['c', 'o', 'm', 'm', 'i', 't', 't', 'e', 'r'] ++ ' ' :: value)
      = (headerSignature value).map fun s => { p with committer := some s } := by
  rw [take, if_neg (by simp), cutAt?_append (by decide)]
  rfl

end Partial

end Commit

end ObjectStore
