import Mathlib.Algebra.Order.BigOperators.Group.List
import Mathlib.Algebra.Order.Group.Nat
import ObjectStore.Command.Outcome
import ObjectStore.Proofs.ObjectId
import ObjectStore.Proofs.Tree.Order
import ObjectStore.Proofs.Tree.Records
import ObjectStore.Tree.Listing

/-!
# Listings written and read

A listing escapes nothing. What it says of an entry stands in front of a tab, in three fields
without blanks, so a line reads back as its entry whatever the name is (`TreeEntry.ofLine_line`).
What does not survive is what a name has in common with the end of a line: a line feed cuts it, and
one carriage return is dropped from its end.

* `Tree.entriesOfListing_listing`: as long as no name holds a line feed, reading a listing gives its
  entries in order, each without that carriage return.
* `Tree.isListable_of_perm`: the entries of a tree are read from its listing, in whatever order,
  only if their names have neither.

So a tree is built again of its listing exactly if that is so (`Tree.build_listing_iff`).
-/

namespace ObjectStore

/-- A written mode reads back as the mode of its value, with the padding it is listed with. -/
theorem EntryMode.ofOctal_paddedOctal (mode : EntryMode) :
    ofOctal (String.ofList mode.paddedOctal) = .ok (ofValue mode.value) := by
  have hvalue : Nat.ofDigitChars 8 mode.paddedOctal 0 = mode.value.toNat := by
    rw [paddedOctal, Nat.ofDigitChars_append, Nat.ofDigitChars_replicate_zero, Nat.mul_zero, octal,
      Nat.ofDigitChars_toDigits (by decide) (by decide)]
  refine ofOctal_eq_ok_iff.mpr ⟨?_, ?_, ?_, ?_⟩
  · exact List.append_ne_nil_of_right_ne_nil _ Nat.toDigits_ne_nil
  · intro c hc
    rcases List.mem_append.mp hc with hc | hc
    · rw [List.eq_of_mem_replicate hc]
      decide
    · rw [← Numeral.isDigit_eight_iff]
      exact Numeral.isDigit_of_mem_toDigits (by decide) (by decide) _ hc
  · rw [hvalue]
    exact mode.value.toNat_lt
  · rw [hvalue, UInt32.ofNat_toNat]

/-- A line read when a line feed follows it is the same whether it is read as bytes or as text. -/
theorem Text.dropReturn_ofString (s : String) :
    (dropReturn 0x0D (Bytes.ofString s).reverse).reverse
      = Bytes.ofString (String.ofList (withoutReturn s.toList)) := by
  by_cases h : s.toList.getLast? = some '\r'
  · obtain ⟨line, hline⟩ := List.getLast?_eq_some_iff.mp h
    have hs : s = String.ofList line ++ "\r" := by
      rw [← String.toList_inj, hline, String.toList_append, String.toList_ofList]
      rfl
    have hreturn : Bytes.ofString "\r" = [0x0D] := by decide +kernel
    rw [hline, withoutReturn_concat, hs, Bytes.ofString_append, hreturn, List.reverse_append]
    exact List.reverse_reverse _
  · rw [withoutReturn_eq_self h, String.ofList_toList]
    exact dropReturn_reverse (mt (Bytes.getLast?_ofString_eq_iff (a := '\r') (by decide)).mp h)

/-! ## One line -/

namespace TreeEntry

variable (entry : TreeEntry)

/-- What a line says of an entry in front of its name. -/
def fields : List Char :=
  entry.mode.paddedOctal ++ ' ' :: (entry.mode.objectType.kind.toList ++ ' ' :: entry.id.hex)

/-- A line is the fields, a tab and the name. -/
theorem toList_line : entry.line.toList = entry.fields ++ '\t' :: entry.name.toList := by
  simp [line, fields, ObjectId.text]

/-- The three fields are made of digits and letters. -/
theorem mem_field {c : Char} (hc : c ∈ entry.mode.paddedOctal ∨
    c ∈ entry.mode.objectType.kind.toList ∨ c ∈ entry.id.hex) : '0' ≤ c ∧ c ≤ 'z' := by
  rcases hc with hc | hc | hc
  · obtain ⟨-, hoctal, -⟩ := EntryMode.ofOctal_eq_ok_iff.mp entry.mode.ofOctal_paddedOctal
    exact ⟨(hoctal c hc).1, Char.le_trans (hoctal c hc).2 (by decide)⟩
  · have hkind : ∀ type : ObjectType,
        type.kind.toList.all (fun c => '0' ≤ c && c ≤ 'z') = true := by
      intro type
      cases type <;> decide
    simpa using List.all_eq_true.mp (hkind _) c hc
  · obtain ⟨n, hn, rfl⟩ := entry.id.mem_hex hc
    have hdigit : ∀ n < 16, '0' ≤ Nat.digitChar n ∧ Nat.digitChar n ≤ 'z' := by decide
    exact hdigit n hn

/-- No field has a blank in it. -/
theorem isBlank_of_mem_field {c : Char} (hc : c ∈ entry.mode.paddedOctal ∨
    c ∈ entry.mode.objectType.kind.toList ∨ c ∈ entry.id.hex) : Text.isBlank c = false := by
  obtain ⟨hzero, hz⟩ := entry.mem_field hc
  have hzero : 48 ≤ c.toNat := hzero
  have hz : c.toNat ≤ 122 := hz
  simp only [Text.isBlank, Bool.or_eq_false_iff, Bool.and_eq_false_iff, decide_eq_false_iff_not,
    beq_eq_false_iff_ne]
  omega

/-- Nothing in front of the name can be taken for the tab, or for the end of a line. -/
theorem not_mem_fields {c : Char} (hspace : c ≠ ' ') (h : ¬ '0' ≤ c) : c ∉ entry.fields := by
  intro hc
  rw [fields, List.mem_append, List.mem_cons, List.mem_append, List.mem_cons] at hc
  have hfield : c ∈ entry.mode.paddedOctal ∨
      c ∈ entry.mode.objectType.kind.toList ∨ c ∈ entry.id.hex := by
    tauto
  exact h (entry.mem_field hfield).1

/-- The fields are the words in front of the tab. -/
theorem words_fields : Text.words entry.fields =
    [entry.mode.paddedOctal, entry.mode.objectType.kind.toList, entry.id.hex] := by
  have hmode : entry.mode.paddedOctal ≠ [] :=
    List.append_ne_nil_of_right_ne_nil _ Nat.toDigits_ne_nil
  have hkind : entry.mode.objectType.kind.toList ≠ [] := by
    cases entry.mode.objectType <;> decide
  have hid : entry.id.hex ≠ [] := by
    rw [← List.length_pos_iff, entry.id.length_hex]
    decide
  rw [fields, Text.words_append (fun c hc => entry.isBlank_of_mem_field (Or.inl hc)) hmode rfl,
    Text.words_append (fun c hc => entry.isBlank_of_mem_field (Or.inr (Or.inl hc))) hkind rfl,
    Text.words_eq_singleton (fun c hc => entry.isBlank_of_mem_field (Or.inr (Or.inr hc))) hid]

variable {entry}

/-- The line of an entry reads back as that entry, whatever its name is. -/
theorem ofLine_line (hmode : entry.mode.IsGiven) : ofLine entry.line = .ok entry := by
  have htab : '\t' ∉ entry.fields := entry.not_mem_fields (by decide) (by decide)
  have hid : ObjectId.parse (String.ofList entry.id.hex) = .ok entry.id := entry.id.parse_text
  rw [ofLine, entry.toList_line, cutAt?_append htab]
  simp only [words_fields, EntryMode.ofOctal_paddedOctal, hmode.ofValue_value, mapError_ok, ok_bind,
    String.ofList_toList, if_true, hid]
  rfl

/-- The line of an entry is not blank. -/
theorem trim_line_ne (entry : TreeEntry) : Text.trim entry.line ≠ "" := by
  obtain ⟨c, hc⟩ := List.exists_mem_of_ne_nil entry.id.hex (by
    rw [← List.length_pos_iff, entry.id.length_hex]
    decide)
  have hline : c ∈ entry.line.toList := by
    rw [entry.toList_line]
    exact List.mem_append_left _ (by simp [fields, hc])
  have hblank := entry.isBlank_of_mem_field (Or.inr (Or.inr hc))
  intro h
  rw [Text.trim, String.ofList_eq_empty_iff] at h
  exact List.not_mem_nil (h ▸ Text.mem_trimmed hblank hline)

/-- An entry without a carriage return at the end of its name. -/
def withoutReturn (entry : TreeEntry) : TreeEntry :=
  { entry with name := String.ofList (Text.withoutReturn entry.name.toList) }

/-- Names that a listing keeps apart from the ends of its lines. -/
def IsListable (entry : TreeEntry) : Prop :=
  '\n' ∉ entry.name.toList ∧ entry.name.toList.getLast? ≠ some '\r'

instance (entry : TreeEntry) : Decidable entry.IsListable := inferInstanceAs (Decidable (_ ∧ _))

/-- A name that can be listed loses nothing. -/
theorem withoutReturn_of_isListable (h : entry.IsListable) : entry.withoutReturn = entry := by
  rw [withoutReturn, Text.withoutReturn_eq_self h.2, String.ofList_toList]

/-- Dropping a carriage return from a line drops it from the name. -/
theorem line_withoutReturn (entry : TreeEntry) :
    entry.withoutReturn.line = String.ofList (Text.withoutReturn entry.line.toList) := by
  have hfront : (entry.fields ++ ['\t']).getLast? ≠ some '\r' := by simp
  have hline : entry.line.toList = (entry.fields ++ ['\t']) ++ entry.name.toList := by
    rw [entry.toList_line, List.append_assoc, List.singleton_append]
  rw [hline, Text.withoutReturn_append hfront, ← String.toList_inj, String.toList_ofList,
    toList_line, List.append_assoc, List.singleton_append, withoutReturn, String.toList_ofList]
  rfl

/-- What a line is read as: a mode that was come by, and a name that stands in the line. -/
theorem isGiven_of_ofLine {line : String} (h : ofLine line = .ok entry) :
    entry.mode.IsGiven ∧ ∀ c ∈ entry.name.toList, c ∈ line.toList := by
  unfold ofLine at h
  split at h
  · cases h
  rename_i fields name hcut
  obtain ⟨hline, -⟩ := cutAt?_eq_some_iff.mp hcut
  split at h
  · obtain ⟨mode, hmode, h⟩ := bind_eq_ok_iff.mp h
    dsimp only at h
    split at h
    · obtain ⟨id, -, h⟩ := bind_eq_ok_iff.mp h
      cases h
      refine ⟨.ofOctal (mapError_eq_ok_iff.mp hmode), fun c hc => ?_⟩
      rw [String.toList_ofList] at hc
      rw [hline]
      exact List.mem_append_right _ (List.mem_cons_of_mem _ hc)
    · cases h
  · cases h

end TreeEntry

/-! ## All lines -/

/-- Texts joined by line feeds, with one at the end, are those texts each with one. -/
theorem Bytes.ofString_intercalate {lines : List String} (hne : lines ≠ []) :
    ofString (String.intercalate "\n" lines ++ "\n")
      = (lines.map ofString).flatMap (· ++ [0x0A]) := by
  have hfeed : ofString "\n" = [0x0A] := by decide +kernel
  induction lines with
  | nil => exact absurd rfl hne
  | cons line lines ih =>
    rw [List.map_cons, List.flatMap_cons]
    by_cases hnil : lines = []
    · subst hnil
      rw [String.intercalate_singleton, ofString_append, hfeed]
      exact (List.append_nil _).symm
    · rw [String.intercalate_cons_of_ne_nil hnil, String.append_assoc, ofString_append,
        ofString_append, hfeed, ih hnil]

namespace Tree

variable {tree : Tree} {entries : List TreeEntry}

/-- The lines of entries are read as these entries. -/
theorem entriesOfLines_lines (number : Nat) (hmodes : ∀ entry ∈ entries, entry.mode.IsGiven) :
    entriesOfLines number (entries.map fun entry => Bytes.ofString entry.line) = .ok entries := by
  induction entries generalizing number with
  | nil => rfl
  | cons entry entries ih =>
    obtain ⟨hmode, hmodes⟩ := List.forall_mem_cons.mp hmodes
    rw [List.map_cons, entriesOfLines, Bytes.toText?_ofString, Option.elim_some, ok_bind,
      if_neg entry.trim_line_ne, TreeEntry.ofLine_line hmode, mapError_ok, ok_bind,
      ih (number + 1) hmodes]
    rfl

/-- As long as no name holds a line feed, a listing is read as the entries it lists, but for a
carriage return at the end of a name. -/
theorem entriesOfListing_listing (hmodes : ∀ entry ∈ tree.entries, entry.mode.IsGiven)
    (hnames : ∀ entry ∈ tree.entries, '\n' ∉ entry.name.toList) :
    entriesOfListing (Command.outputLine tree.listing)
      = .ok (tree.entries.map TreeEntry.withoutReturn) := by
  by_cases hnil : tree.entries = []
  · -- an empty tree is listed as one blank line
    rw [listing, hnil]
    decide +kernel
  have hfeed : ∀ line ∈ (tree.entries.map TreeEntry.line).map Bytes.ofString, 0x0A ∉ line := by
    intro line hline
    rw [List.map_map] at hline
    obtain ⟨entry, hentry, rfl⟩ := List.mem_map.mp hline
    rw [Function.comp_apply, Bytes.feed_mem_ofString_iff, entry.toList_line]
    simp only [List.mem_append, List.mem_cons, not_or]
    exact ⟨entry.not_mem_fields (by decide) (by decide), by decide, hnames entry hentry⟩
  have hread : ((tree.entries.map TreeEntry.line).map Bytes.ofString).map
        (fun line => (Text.dropReturn 0x0D line.reverse).reverse)
      = (tree.entries.map TreeEntry.withoutReturn).map fun entry => Bytes.ofString entry.line := by
    rw [List.map_map, List.map_map, List.map_map]
    refine List.map_congr_left fun entry _ => ?_
    simp only [Function.comp_apply, Text.dropReturn_ofString, entry.line_withoutReturn]
  rw [entriesOfListing, Command.outputLine, listing,
    Bytes.ofString_intercalate (by simpa using hnil), Text.lines_flatMap 0x0A 0x0D hfeed, hread]
  apply entriesOfLines_lines
  intro entry hentry
  obtain ⟨entry', hentry', rfl⟩ := List.mem_map.mp hentry
  exact hmodes entry' hentry'

/-- What lines are read as: modes that were come by, and names without line feeds. -/
theorem isGiven_of_entriesOfLines {number : Nat} {lines : List Bytes}
    (hlines : ∀ line ∈ lines, 0x0A ∉ line) (h : entriesOfLines number lines = .ok entries) :
    ∀ entry ∈ entries, entry.mode.IsGiven ∧ '\n' ∉ entry.name.toList := by
  induction lines generalizing number entries with
  | nil =>
    cases h
    exact fun _ hm => absurd hm List.not_mem_nil
  | cons line lines ih =>
    obtain ⟨hline, hlines⟩ := List.forall_mem_cons.mp hlines
    rw [entriesOfLines] at h
    obtain ⟨text, htext, h⟩ := bind_eq_ok_iff.mp h
    split at h
    · exact ih hlines h
    obtain ⟨entry, hentry, h⟩ := bind_eq_ok_iff.mp h
    obtain ⟨more, hmore, h⟩ := bind_eq_ok_iff.mp h
    cases h
    obtain ⟨hmode, hname⟩ := TreeEntry.isGiven_of_ofLine (mapError_eq_ok_iff.mp hentry)
    refine List.forall_mem_cons.mpr ⟨⟨hmode, fun hfeed => hline ?_⟩, ih hlines hmore⟩
    rw [elim_eq_ok_iff, Bytes.toText?_eq_some_iff] at htext
    rw [htext, Bytes.feed_mem_ofString_iff]
    exact hname _ hfeed

/-- Entries that were read have modes that can be given, and names without line feeds. -/
theorem isGiven_of_entriesOfListing {text : Bytes} (h : entriesOfListing text = .ok entries) :
    ∀ entry ∈ entries, entry.mode.IsGiven ∧ '\n' ∉ entry.name.toList :=
  isGiven_of_entriesOfLines
    (fun _ hline => Text.feed_not_mem_of_mem_linesFrom List.not_mem_nil hline) h

/-- The entries of a tree are read from its listing only if a listing keeps their names. -/
theorem isListable_of_perm (hmodes : ∀ entry ∈ tree.entries, entry.mode.IsGiven)
    (h : entriesOfListing (Command.outputLine tree.listing) = .ok entries)
    (hperm : entries.Perm tree.entries) : ∀ entry ∈ tree.entries, entry.IsListable := by
  have hfeed : ∀ entry ∈ tree.entries, '\n' ∉ entry.name.toList := fun entry hentry =>
    (isGiven_of_entriesOfListing h entry (hperm.mem_iff.mpr hentry)).2
  rw [entriesOfListing_listing hmodes hfeed, Except.ok.injEq] at h
  subst h
  intro entry hentry
  refine ⟨hfeed entry hentry, fun hreturn => ?_⟩
  -- the names would be shorter together than they are
  have hsum := (hperm.map fun entry => entry.name.toList.length).sum_eq
  rw [List.map_map] at hsum
  refine (List.sum_lt_sum _ _ (fun entry _ => ?_) ⟨entry, hentry, ?_⟩).ne hsum
  · rw [Function.comp_apply, TreeEntry.withoutReturn, String.toList_ofList]
    exact Text.length_withoutReturn_le _
  · obtain ⟨front, hfront⟩ := List.getLast?_eq_some_iff.mp hreturn
    rw [Function.comp_apply, TreeEntry.withoutReturn, String.toList_ofList, hfront,
      Text.withoutReturn_concat, List.length_append]
    exact Nat.lt_succ_self _

/-- A tree that was built is built again of what is read from its listing exactly if a listing keeps
the names of all its entries. -/
theorem build_listing_iff (hmodes : ∀ entry ∈ entries, entry.mode.IsGiven)
    (h : build entries = .ok tree) :
    (∃ read, entriesOfListing (Command.outputLine tree.listing) = .ok read ∧
      build read = .ok tree) ↔ ∀ entry ∈ entries, entry.IsListable := by
  obtain ⟨hperm, -⟩ := ascends_of_build hmodes h
  have hmodes' : ∀ entry ∈ tree.entries, entry.mode.IsGiven := fun entry hentry =>
    hmodes entry (hperm.mem_iff.mp hentry)
  constructor
  · rintro ⟨read, hread, hbuild⟩ entry hentry
    have hrow : read.Perm tree.entries := by
      rw [(build_eq_ok_iff.mp hbuild).2]
      exact (List.mergeSort_perm read _).symm
    exact isListable_of_perm hmodes' hread hrow entry (hperm.mem_iff.mpr hentry)
  · intro hlistable
    have hsame : tree.entries.map TreeEntry.withoutReturn = tree.entries := by
      rw [List.map_congr_left fun entry hentry =>
        TreeEntry.withoutReturn_of_isListable (hlistable entry (hperm.mem_iff.mp hentry))]
      exact List.map_id' _
    refine ⟨tree.entries, ?_, build_of_perm hmodes hperm h⟩
    rw [entriesOfListing_listing hmodes' fun entry hentry =>
      (hlistable entry (hperm.mem_iff.mp hentry)).1, hsame]

end Tree

end ObjectStore
