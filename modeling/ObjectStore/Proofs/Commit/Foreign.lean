import ObjectStore.Proofs.Commit.Faults
import ObjectStore.Proofs.Commit.RoundTrip

/-!
# Foreign headers

A commit may be written by somebody who has more to say in its headers: a signature of the whole, an
encoding, another object that was merged. Such lines have keys of their own, or they start with a
space and continue the line before them.

* `IsForeign`: a line of that sort.
* `Mixed own lines`: the lines are the own ones with foreign lines anywhere between them, before the
  first or behind the last.
* `Mixed.foldlM_take`: taking in the lines one by one comes to what taking in the own ones does,
  because a foreign line is no blank line and is passed over, with or without the carriage return
  that reading drops from its end.
* `decode_mixed`: so a commit reads back from its own headers among foreign ones.
-/

namespace ObjectStore.Commit

open Text

variable {line : String} {own lines : List String}

/-! ## Foreign lines -/

/-- The keys of the header lines that a commit is read from. -/
def ownKeys : List String := ["tree", "parent", "author", "committer"]

/-- A header line that a commit is not read from: a line that continues another one, or a key that
is none of the commit's, a space and a value. -/
inductive IsForeign : String → Prop where
  | continued {rest : String} (hrest : '\n' ∉ rest.toList) : IsForeign (" " ++ rest)
  | keyed {key value : String} (hne : key ≠ "") (hspace : ' ' ∉ key.toList) (hown : key ∉ ownKeys)
    (hkey : '\n' ∉ key.toList) (hvalue : '\n' ∉ value.toList) : IsForeign (key ++ " " ++ value)

/-- The own lines in their order, with foreign lines put in anywhere. -/
inductive Mixed : List String → List String → Prop where
  | nil : Mixed [] []
  | own (line : String) {own lines : List String} (h : Mixed own lines) :
    Mixed (line :: own) (line :: lines)
  | foreign {line : String} {own lines : List String} (hline : IsForeign line)
    (h : Mixed own lines) : Mixed own (line :: lines)

/-- A key that is none of the commit's is not looked for. -/
theorem not_mem_keys {key : String} (h : key ∉ ownKeys) :
    key.toList ∉ idKeys ∧ key.toList ∉ signatureKeys := by
  have hkeys : ownKeys.map String.toList = idKeys ++ signatureKeys := by decide
  have hlist : key.toList ∉ idKeys ++ signatureKeys := by
    intro hmem
    rw [← hkeys] at hmem
    obtain ⟨known, hknown, heq⟩ := List.mem_map.mp hmem
    exact h (String.toList_inj.mp heq ▸ hknown)
  exact ⟨fun hid => hlist (List.mem_append_left _ hid),
    fun hsignature => hlist (List.mem_append_right _ hsignature)⟩

namespace IsForeign

/-- A foreign line is a line. -/
theorem isLine (h : IsForeign line) : IsLine line.toList := by
  cases h with
  | continued hrest => exact ⟨by simp, by simpa using hrest⟩
  | keyed hne _ _ hkey hvalue => exact ⟨by simp, by simp [hkey, hvalue]⟩

/-- A foreign line is passed over, whatever the lines before it said. -/
theorem take (h : IsForeign line) (p : Partial) : p.take line.toList = .ok p := by
  cases h with
  | continued hrest =>
    rw [String.toList_append]
    exact p.take_continued _
  | @keyed key value hne hspace hown _ _ =>
    obtain ⟨hid, hsignature⟩ := not_mem_keys hown
    have hline : (key ++ " " ++ value).toList = key.toList ++ ' ' :: value.toList := by simp
    rw [hline]
    exact p.take_unknown hspace hid hsignature

/-- A carriage return at its end may only belong to what is not looked at. -/
theorem take_withoutReturn (h : IsForeign line) (p : Partial) :
    p.take (withoutReturn line.toList) = .ok p := by
  cases h with
  | @continued rest hrest =>
    have hline : (" " ++ rest).toList = [' '] ++ rest.toList := by simp
    rw [hline, withoutReturn_append (by simp)]
    exact p.take_continued _
  | @keyed key value hne hspace hown _ _ =>
    obtain ⟨hid, hsignature⟩ := not_mem_keys hown
    have hline : (key ++ " " ++ value).toList = (key.toList ++ [' ']) ++ value.toList := by simp
    rw [hline, withoutReturn_append (by simp), List.append_assoc]
    exact p.take_unknown hspace hid hsignature

end IsForeign

/-! ## Lines among foreign lines -/

namespace Mixed

/-- Every line is one of the own ones, or foreign. -/
theorem mem_or (h : Mixed own lines) (hline : line ∈ lines) : line ∈ own ∨ IsForeign line := by
  induction h with
  | nil => exact absurd hline List.not_mem_nil
  | own other _ ih =>
    rcases List.mem_cons.mp hline with rfl | hline
    · exact Or.inl List.mem_cons_self
    · exact (ih hline).imp_left (List.mem_cons_of_mem other)
  | foreign hother _ ih =>
    rcases List.mem_cons.mp hline with rfl | hline
    · exact Or.inr hother
    · exact ih hline

/-- Mixing in foreign lines leaves no line out. -/
theorem ne_nil (h : Mixed own lines) (hne : own ≠ []) : lines ≠ [] := by
  cases h with
  | nil => exact hne
  | own => exact List.cons_ne_nil _ _
  | foreign => exact List.cons_ne_nil _ _

/-- The foreign lines make no difference to what is taken in. -/
theorem foldlM_take (h : Mixed own lines) (p : Partial) :
    (lines.map String.toList).foldlM Partial.take p
      = (own.map String.toList).foldlM Partial.take p := by
  induction h generalizing p with
  | nil => rfl
  | own line _ ih =>
    simp only [List.map_cons, List.foldlM_cons]
    congr 1
    funext p'
    exact ih p'
  | foreign hline _ ih =>
    rw [List.map_cons, List.foldlM_cons, hline.take, ok_bind]
    exact ih p

end Mixed

/-! ## Reading past foreign lines -/

/-- Dropping carriage returns makes no difference to what is taken in, if it makes none to any
line. -/
theorem foldlM_take_withoutReturn {ls : List (List Char)}
    (h : ∀ l ∈ ls, ∀ p : Partial, p.take (withoutReturn l) = p.take l) (p : Partial) :
    (ls.map withoutReturn).foldlM Partial.take p = ls.foldlM Partial.take p := by
  induction ls generalizing p with
  | nil => rfl
  | cons l ls ih =>
    obtain ⟨hl, hls⟩ := List.forall_mem_cons.mp h
    rw [List.map_cons, List.foldlM_cons, List.foldlM_cons, hl]
    congr 1
    funext p'
    exact ih hls p'

/-- The headers of a commit are lines, and none ends in a carriage return. -/
theorem isLine_of_mem_headers {commit : Commit} (h : line ∈ commit.headers) :
    IsLine line.toList ∧ line.toList.getLast? ≠ some '\r' := by
  have hmem : line.toList ∈ commit.front ++ [commit.back] := by
    rw [← map_toList_headers]
    exact List.mem_map_of_mem h
  rcases List.mem_append.mp hmem with hfront | hback
  · exact isLine_of_mem_front hfront
  · rw [List.mem_singleton.mp hback]
    exact isLine_signature (by decide) _

/-- The lines of a block whose own lines are the headers of a commit. -/
theorem Mixed.isLine {commit : Commit} (h : Mixed commit.headers lines) {l : List Char}
    (hl : l ∈ lines.map String.toList) :
    IsLine l ∧ ∀ p : Partial, p.take (withoutReturn l) = p.take l := by
  obtain ⟨line, hline, rfl⟩ := List.mem_map.mp hl
  rcases h.mem_or hline with hown | hforeign
  · obtain ⟨hisLine, hlast⟩ := isLine_of_mem_headers hown
    exact ⟨hisLine, fun p => by rw [withoutReturn_eq_self hlast]⟩
  · exact ⟨hforeign.isLine, fun p => (hforeign.take_withoutReturn p).trans (hforeign.take p).symm⟩

/-- A block of lines, a blank line and a message is read line by line, and no carriage return at the
end of a line matters. -/
theorem ofText_block {ls : List (List Char)} (hne : ls ≠ []) (hlines : ∀ l ∈ ls, IsLine l)
    (hreturn : ∀ l ∈ ls, ∀ p : Partial, p.take (withoutReturn l) = p.take l)
    (message : List Char) :
    ofText (joinLines ls ++ '\n' :: '\n' :: message) = (ls.foldlM Partial.take {} >>= fun p =>
      (p.finish message).mapError fun fault => .malformed (.commit fault)) := by
  -- reading drops the carriage returns of all lines but the last one
  obtain ⟨init, last, rfl⟩ := (List.eq_nil_or_concat' ls).resolve_left hne
  have hinit : ∀ l ∈ init, l ∈ init ++ [last] := fun l hl => List.mem_append_left _ hl
  rw [ofText_joinLines (fun l hl => hlines l (hinit l hl)) (hlines last (by simp)),
    List.foldlM_append, List.foldlM_append,
    foldlM_take_withoutReturn fun l hl => hreturn l (hinit l hl)]

/-- The payload of a commit, with the given lines for its headers. -/
def encodeWith (commit : Commit) (lines : List String) : Bytes :=
  Bytes.ofString (String.intercalate "\n" (lines ++ ["", commit.message]) ++ "\n")

/-- A commit whose signatures were given as text reads back from its own headers with foreign lines
anywhere among them: whatever these hold, none is taken for a header of the commit or for the end of
the headers. -/
theorem decode_mixed {commit : Commit} (hauthor : commit.author.IsGiven)
    (hcommitter : commit.committer.IsGiven) (h : Mixed commit.headers lines) :
    decode (commit.encodeWith lines) = .ok commit := by
  have hne : lines ≠ [] := h.ne_nil (by simp [headers])
  have htext : Bytes.toText? (commit.encodeWith lines)
      = some (String.intercalate "\n" (lines ++ ["", commit.message]) ++ "\n") :=
    Bytes.toText?_ofString _
  have htaken : (lines.map String.toList).foldlM Partial.take {}
      = .ok ⟨some commit.tree, commit.parents.reverse, some commit.author,
          some commit.committer⟩ := by
    rw [h.foldlM_take, map_toList_headers, foldlM_take_headers hauthor.leap hcommitter.leap]
  rw [decode, htext]
  simp only
  rw [toList_payload hne, ofText_block (by simpa using hne) (fun l hl => (h.isLine hl).1)
    (fun l hl => (h.isLine hl).2), htaken, ok_bind]
  simp [Partial.finish, dropFinalFeed_concat]

/-- A signature of the whole in front of everything, whose continuation lines are a single space and
one that reads like a header, and a key without a value at the end, before a carriage return. -/
theorem decode_mixed_signed :
    let author : Signature :=
      ⟨"A", "a", ⟨0, 0, false, by decide, by decide⟩, by decide, by decide, by decide⟩
    let tree : ObjectId := ⟨List.replicate 20 0, rfl⟩
    let commit : Commit := ⟨tree, [tree], author, author, "\n\nsigned\n"⟩
    let lines : List String :=
      ["gpgsig -----BEGIN", " ", " tree x"] ++ commit.headers ++ ["trees \r"]
    author.IsGiven ∧ Mixed commit.headers lines ∧ decode (commit.encodeWith lines) = .ok commit := by
  intro author tree commit lines
  have hread : Signature.parse "A <a> 0 +0000" = .ok author := by decide +kernel
  have hauthor : author.IsGiven := .read hread
  have hkey : IsForeign "gpgsig -----BEGIN" :=
    @IsForeign.keyed "gpgsig" "-----BEGIN" (by decide) (by decide) (by decide) (by decide)
      (by decide)
  have hblank : IsForeign " " := @IsForeign.continued "" (by decide)
  have htree : IsForeign " tree x" := @IsForeign.continued "tree x" (by decide)
  have hempty : IsForeign "trees \r" :=
    @IsForeign.keyed "trees" "\r" (by decide) (by decide) (by decide) (by decide) (by decide)
  have hmixed : Mixed commit.headers lines :=
    .foreign hkey <| .foreign hblank <| .foreign htree <| .own _ <| .own _ <| .own _ <| .own _ <|
      .foreign hempty .nil
  exact ⟨hauthor, hmixed, decode_mixed hauthor hauthor hmixed⟩

end ObjectStore.Commit
