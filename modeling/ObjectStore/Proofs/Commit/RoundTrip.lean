import ObjectStore.Proofs.Commit.Headers
import ObjectStore.Proofs.ObjectId
import ObjectStore.Proofs.Signature

/-!
# Commits read back

Every field of a commit that is free text stands where it can do no harm: ids are digits, the names
and emails of signatures hold no line feed, and the message comes last. So the header lines that a
commit is written with are lines (`isLine_of_mem_front`), each of them is taken in as what it was
written for (`take_tree` and its companions), and the commit reads back (`decode_encode`).

`decode_encode_of_isGiven` says this of all commits whose signatures were given as text.
-/

namespace ObjectStore.Commit

open Text

/-! ## The header lines of a commit -/

section Taking

variable (p : Partial) (id : ObjectId) {s : Signature}

/-- The digits of an id are read as that id. -/
theorem headerId_hex : headerId id.hex = .ok id := by
  rw [headerId, ← ObjectId.text, ObjectId.parse_text]
  rfl

/-- The text of a signature is read as that signature, if its time is no leap second. -/
theorem headerSignature_text (h : s.time.leap = false) : headerSignature s.text.toList = .ok s := by
  rw [headerSignature, String.ofList_toList, Signature.parse_text h]
  rfl

/-- The header of the tree is read back. -/
theorem take_tree : p.take ("tree " ++ id.text).toList = .ok { p with tree := some id } := by
  have hline : ("tree " ++ id.text).toList = ['t', 'r', 'e', 'e'] ++ ' ' :: id.hex := by
    simp [ObjectId.text]
  rw [hline, p.take_tree_line, headerId_hex]
  rfl

/-- The header of a parent is read back. -/
theorem take_parent :
    p.take ("parent " ++ id.text).toList = .ok { p with parents := id :: p.parents } := by
  have hline : ("parent " ++ id.text).toList = ['p', 'a', 'r', 'e', 'n', 't'] ++ ' ' :: id.hex := by
    simp [ObjectId.text]
  rw [hline, p.take_parent_line, headerId_hex]
  rfl

/-- The header of the author is read back, if the time is no leap second. -/
theorem take_author (h : s.time.leap = false) :
    p.take ("author " ++ s.text).toList = .ok { p with author := some s } := by
  have hline : ("author " ++ s.text).toList
      = ['a', 'u', 't', 'h', 'o', 'r'] ++ ' ' :: s.text.toList := by simp
  rw [hline, p.take_author_line, headerSignature_text h]
  rfl

/-- The header of the committer is read back, if the time is no leap second. -/
theorem take_committer (h : s.time.leap = false) :
    p.take ("committer " ++ s.text).toList = .ok { p with committer := some s } := by
  have hline : ("committer " ++ s.text).toList
      = ['c', 'o', 'm', 'm', 'i', 't', 't', 'e', 'r'] ++ ' ' :: s.text.toList := by simp
  rw [hline, p.take_committer_line, headerSignature_text h]
  rfl

/-- Parents are taken in one after the other. -/
theorem foldlM_take_parents (ids : List ObjectId) :
    (ids.map fun id => ("parent " ++ id.text).toList).foldlM Partial.take p
      = .ok { p with parents := ids.reverse ++ p.parents } := by
  induction ids generalizing p with
  | nil => rfl
  | cons id ids ih =>
    rw [List.map_cons, List.foldlM_cons, take_parent, ok_bind, ih]
    simp

end Taking

/-! ## Reading a commit back -/

/-- The header lines of a commit but for the last one. -/
def front (commit : Commit) : List (List Char) :=
  ("tree " ++ commit.tree.text).toList
    :: commit.parents.map (fun id => ("parent " ++ id.text).toList)
    ++ [("author " ++ commit.author.text).toList]

/-- The last header line of a commit. -/
def back (commit : Commit) : List Char := ("committer " ++ commit.committer.text).toList

/-- The headers, taken apart at the last one. -/
theorem map_toList_headers (commit : Commit) :
    commit.headers.map String.toList = commit.front ++ [commit.back] := by
  simp [headers, front, back]

/-- Joined with a blank line and a message, lines are a block that those two follow. -/
theorem toList_payload {lines : List String} (hne : lines ≠ []) (message : String) :
    (String.intercalate "\n" (lines ++ ["", message]) ++ "\n").toList
      = joinLines (lines.map String.toList) ++ '\n' :: '\n' :: (message.toList ++ ['\n']) := by
  rw [String.intercalate_append_of_ne_nil hne (by simp), String.toList_append,
    String.toList_append, String.toList_append, String.toList_intercalate]
  simp [joinLines, String.intercalate_cons_cons]

/-- The payload of a commit is the block of its header lines, a blank line, the message and a line
feed. -/
theorem toList_text (commit : Commit) :
    (commit.text ++ "\n").toList
      = joinLines (commit.front ++ [commit.back]) ++ '\n' :: '\n' ::
        (commit.message.toList ++ ['\n']) := by
  have hne : commit.headers ≠ [] := by simp [headers]
  rw [text, toList_payload hne, map_toList_headers]

/-- The line feed that ends the payload is not part of the message. -/
theorem dropFinalFeed_concat (message : List Char) :
    dropFinalFeed (message ++ ['\n']) = message := by
  simp [dropFinalFeed]

/-- A key and a value make a line if both do. -/
theorem isLine_append {key value : String} (hne : value.toList ≠ []) (hkey : '\n' ∉ key.toList)
    (hvalue : '\n' ∉ value.toList) (hlast : value.toList.getLast? ≠ some '\r') :
    IsLine (key ++ value).toList ∧ (key ++ value).toList.getLast? ≠ some '\r' := by
  rw [String.toList_append]
  refine ⟨⟨by simp [hne], ?_⟩, by rwa [List.getLast?_append_of_ne_nil _ hne]⟩
  intro hmem
  exact (List.mem_append.mp hmem).elim hkey hvalue

/-- A key and an id make a line. -/
theorem isLine_id {key : String} (hkey : '\n' ∉ key.toList) (id : ObjectId) :
    IsLine (key ++ id.text).toList ∧ (key ++ id.text).toList.getLast? ≠ some '\r' := by
  have hhex : id.text.toList = id.hex := String.toList_ofList
  have hne : id.hex ≠ [] := List.ne_nil_of_length_pos (by rw [id.length_hex]; decide)
  refine isLine_append (hhex ▸ hne) hkey ?_ ?_
  · rw [hhex]
    exact id.not_mem_hex_of_ne (by decide)
  · rw [hhex]
    intro hlast
    exact id.not_mem_hex_of_ne (by decide) (List.mem_of_mem_getLast? hlast)

/-- A key and a signature make a line. -/
theorem isLine_signature {key : String} (hkey : '\n' ∉ key.toList) (s : Signature) :
    IsLine (key ++ s.text).toList ∧ (key ++ s.text).toList.getLast? ≠ some '\r' := by
  refine isLine_append ?_ hkey ?_ ?_
  · rw [Signature.toList_text]
    simp
  · intro hfeed
    rcases Signature.mem_text hfeed with hfeed | hfeed | hfeed <;> cases hfeed
  · intro hlast
    rcases Timestamp.mem_raw (Signature.getLast?_text hlast) with h | h | h | h <;> cases h

/-- All headers but the last are lines. -/
theorem isLine_of_mem_front {commit : Commit} {line : List Char} (h : line ∈ commit.front) :
    IsLine line ∧ line.getLast? ≠ some '\r' := by
  rcases List.mem_append.mp h with h | h
  · rcases List.mem_cons.mp h with rfl | h
    · exact isLine_id (by decide) _
    · obtain ⟨id, -, rfl⟩ := List.mem_map.mp h
      exact isLine_id (by decide) _
  · rw [List.mem_singleton] at h
    subst h
    exact isLine_signature (by decide) _

/-- The header lines of a commit say what the commit is. -/
theorem foldlM_take_headers {commit : Commit} (hauthor : commit.author.time.leap = false)
    (hcommitter : commit.committer.time.leap = false) :
    (commit.front ++ [commit.back]).foldlM Partial.take {}
      = .ok ⟨some commit.tree, commit.parents.reverse, some commit.author,
          some commit.committer⟩ := by
  rw [front, back, List.cons_append, List.cons_append, List.append_assoc, List.foldlM_cons,
    take_tree, ok_bind, List.foldlM_append, foldlM_take_parents, ok_bind, List.cons_append,
    List.nil_append, List.foldlM_cons, take_author _ hauthor, ok_bind, List.foldlM_cons,
    take_committer _ hcommitter, ok_bind, List.append_nil]
  rfl

/-- What a commit is written as reads back as the commit, if its signatures do. -/
theorem decode_encode {commit : Commit} (hauthor : commit.author.time.leap = false)
    (hcommitter : commit.committer.time.leap = false) : decode commit.encode = .ok commit := by
  have hback : IsLine commit.back := (isLine_signature (by decide) commit.committer).1
  have hkeep : commit.front.map withoutReturn = commit.front := by
    rw [List.map_congr_left fun line hline => withoutReturn_eq_self (isLine_of_mem_front hline).2]
    exact List.map_id _
  have htext : Bytes.toText? commit.encode = some (commit.text ++ "\n") := Bytes.toText?_ofString _
  rw [decode, htext]
  simp only
  rw [toList_text, ofText_joinLines (fun line hline => (isLine_of_mem_front hline).1) hback,
    hkeep, foldlM_take_headers hauthor hcommitter, ok_bind]
  simp [Partial.finish, dropFinalFeed_concat]

/-- A commit whose signatures were given as text reads back as it was, whatever its parents and its
message are, so writing it again gives the same payload and the same id. -/
theorem decode_encode_of_isGiven (tree : ObjectId) (parents : List ObjectId)
    {author committer : Signature} (message : String) (hauthor : author.IsGiven)
    (hcommitter : committer.IsGiven) :
    let commit : Commit := ⟨tree, parents, author, committer, message⟩
    decode commit.encode = .ok commit ∧
      (decode commit.encode).map encode = .ok commit.encode ∧
      (decode commit.encode).map id = .ok commit.id := by
  intro commit
  have hread : decode commit.encode = .ok commit :=
    @decode_encode commit hauthor.leap hcommitter.leap
  rw [hread]
  exact ⟨rfl, rfl, rfl⟩

/-- A message that starts with a blank line and goes on like headers, and a parent given twice. -/
theorem decode_encode_of_isGiven_forged :
    let author : Signature :=
      ⟨"", "a b", ⟨-1, -450, false, by decide, by decide⟩, by decide, by decide, by decide⟩
    let committer : Signature :=
      ⟨"C", "", ⟨0, 99, false, by decide, by decide⟩, by decide, by decide, by decide⟩
    let parent : ObjectId := ⟨List.replicate 20 255, rfl⟩
    let commit : Commit :=
      ⟨⟨List.replicate 20 0, rfl⟩, [parent, parent], author, committer, "\n\nparent x\n\n"⟩
    author.IsGiven ∧ committer.IsGiven ∧ decode commit.encode = .ok commit := by
  intro author committer parent commit
  have hread : Signature.parse " <a b> -1 -0730" = .ok author := by decide +kernel
  have hdate : Timestamp.parseRaw "0 +0099" = .ok committer.time := by decide +kernel
  have hmake : Signature.make " C\t" "" committer.time = .ok committer := by decide +kernel
  have hauthor : author.IsGiven := .read hread
  have hcommitter : committer.IsGiven := .made hdate hmake
  exact ⟨hauthor, hcommitter, (decode_encode_of_isGiven _ _ _ hauthor hcommitter).1⟩

end ObjectStore.Commit
