import Mathlib.Tactic.SplitIfs
import ObjectStore.Bytes

/-!
# Separators

Headers, tree records and listings are cut at separators: a sequence is cut at the first one, and
what stands before it holds none (`cutAt?_eq_some_iff`).

Where the sequence is a text in UTF-8 and the separator is ASCII, it makes no difference whether
the text is searched or its bytes: an ASCII character's byte stands in the UTF-8 form of a text
exactly if the character stands in the text (`Bytes.mem_ofString_iff`).
-/

namespace ObjectStore

/-! ## Cutting -/

section Cutting

variable {α : Type} [BEq α] {separator : α}

/-- An empty sequence has no separator. -/
@[simp] theorem cutAt?_nil : cutAt? separator ([] : List α) = none := rfl

variable [LawfulBEq α]

/-- A sequence that starts with the separator is cut in front. -/
@[simp] theorem cutAt?_cons_self (l : List α) :
    cutAt? separator (separator :: l) = some ([], l) := by
  simp [cutAt?]

/-- A sequence that starts with something else is cut further on. -/
theorem cutAt?_cons_of_ne {x : α} (h : x ≠ separator) (l : List α) :
    cutAt? separator (x :: l)
      = (cutAt? separator l).map fun (before, after) => (x :: before, after) := by
  simp only [cutAt?, List.dropWhile_cons, List.takeWhile_cons, bne_iff_ne, ne_eq, h,
    not_false_eq_true, if_true]
  split <;> simp_all

/-- A sequence is cut at its first separator. -/
theorem cutAt?_eq_some_iff {l before after : List α} :
    cutAt? separator l = some (before, after) ↔
      l = before ++ separator :: after ∧ separator ∉ before := by
  induction l generalizing before with
  | nil => simp
  | cons x l ih =>
    by_cases hx : x = separator
    · subst hx
      rw [cutAt?_cons_self]
      constructor
      · intro h
        cases h
        exact ⟨rfl, List.not_mem_nil⟩
      · rintro ⟨h, hmem⟩
        cases before with
        | nil => rw [List.nil_append, List.cons.injEq] at h; rw [h.2]
        | cons y before =>
          rw [List.cons_append, List.cons.injEq] at h
          exact absurd (h.1 ▸ List.mem_cons_self) hmem
    · rw [cutAt?_cons_of_ne hx, Option.map_eq_some_iff]
      constructor
      · rintro ⟨⟨rest, after'⟩, hcut, heq⟩
        cases heq
        obtain ⟨rfl, hmem⟩ := ih.mp hcut
        exact ⟨rfl, List.not_mem_cons_of_ne_of_not_mem (Ne.symm hx) hmem⟩
      · rintro ⟨h, hmem⟩
        cases before with
        | nil =>
          rw [List.nil_append, List.cons.injEq] at h
          exact absurd h.1 hx
        | cons y before =>
          rw [List.cons_append, List.cons.injEq] at h
          obtain ⟨rfl, hl⟩ := h
          exact ⟨(before, after), ih.mpr ⟨hl, fun hm => hmem (List.mem_cons_of_mem _ hm)⟩, rfl⟩

/-- A sequence with a separator in it is cut there, if there is none before. -/
theorem cutAt?_append {before : List α} (h : separator ∉ before) (after : List α) :
    cutAt? separator (before ++ separator :: after) = some (before, after) :=
  cutAt?_eq_some_iff.mpr ⟨rfl, h⟩

end Cutting

/-! ## ASCII characters in UTF-8 -/

namespace Bytes

/-- The bytes of a text are the encodings of its characters in a row. -/
theorem ofString_eq_flatMap (s : String) : ofString s = s.toList.flatMap String.utf8EncodeChar := by
  unfold ofString
  rw [← String.utf8Encode_toList]
  simp [List.utf8Encode]

/-- The bytes of a character beyond ASCII are beyond ASCII too. -/
theorem le_of_mem_utf8EncodeChar {c : Char} (hc : 0x7F < c.toNat) {b : UInt8}
    (hb : b ∈ String.utf8EncodeChar c) : 0x80 ≤ b.toNat := by
  unfold String.utf8EncodeChar at hb
  simp only [Char.toNat_val, Nat.not_le.mpr hc, if_false] at hb
  split_ifs at hb
  · simp only [List.mem_cons, List.not_mem_nil, or_false] at hb
    rcases hb with rfl | rfl <;> rw [UInt8.toNat_ofNat'] <;> omega
  · simp only [List.mem_cons, List.not_mem_nil, or_false] at hb
    rcases hb with rfl | rfl | rfl <;> rw [UInt8.toNat_ofNat'] <;> omega
  · simp only [List.mem_cons, List.not_mem_nil, or_false] at hb
    rcases hb with rfl | rfl | rfl | rfl <;> rw [UInt8.toNat_ofNat'] <;> omega

/-- The only byte of an ASCII character is its code. -/
theorem utf8EncodeChar_of_le {c : Char} (hc : c.toNat ≤ 0x7F) :
    String.utf8EncodeChar c = [UInt8.ofNat c.toNat] := by
  simp [String.utf8EncodeChar, Char.toNat_val, hc]

/-- An ASCII byte is in the encoding of no other character. -/
theorem mem_utf8EncodeChar_iff {a c : Char} (ha : a.toNat < 0x80) :
    UInt8.ofNat a.toNat ∈ String.utf8EncodeChar c ↔ c = a := by
  have hbyte : (UInt8.ofNat a.toNat).toNat = a.toNat := by
    rw [UInt8.toNat_ofNat']
    omega
  by_cases hc : 0x7F < c.toNat
  · have hne : c ≠ a := by
      rintro rfl
      omega
    refine iff_of_false ?_ hne
    intro hm
    have := le_of_mem_utf8EncodeChar hc hm
    omega
  · rw [utf8EncodeChar_of_le (Nat.not_lt.mp hc), List.mem_singleton, ← UInt8.toNat_inj, hbyte,
      UInt8.toNat_ofNat', ← Char.toNat_inj]
    omega

/-- An ASCII character stands in a text exactly if its byte stands in the text's UTF-8 form. -/
theorem mem_ofString_iff {a : Char} (ha : a.toNat < 0x80) {s : String} :
    UInt8.ofNat a.toNat ∈ ofString s ↔ a ∈ s.toList := by
  rw [ofString_eq_flatMap, List.mem_flatMap]
  constructor
  · rintro ⟨c, hc, hm⟩
    rw [mem_utf8EncodeChar_iff ha] at hm
    exact hm ▸ hc
  · exact fun h => ⟨a, h, (mem_utf8EncodeChar_iff ha).mpr rfl⟩

/-- A text ends in an ASCII character exactly if its UTF-8 form ends in that character's byte. -/
theorem getLast?_ofString_eq_iff {a : Char} (ha : a.toNat < 0x80) {s : String} :
    (ofString s).getLast? = some (UInt8.ofNat a.toNat) ↔ s.toList.getLast? = some a := by
  rw [ofString_eq_flatMap]
  by_cases hnil : s.toList = []
  · simp [hnil]
  obtain ⟨front, c, hlast⟩ : ∃ front c, s.toList = front ++ [c] :=
    ⟨_, _, (List.dropLast_concat_getLast hnil).symm⟩
  have hend : (s.toList.flatMap String.utf8EncodeChar).getLast?
      = (String.utf8EncodeChar c).getLast? := by
    rw [hlast, List.flatMap_append, List.flatMap_singleton, List.getLast?_append,
      List.getLast?_eq_some_getLast String.utf8EncodeChar_ne_nil, Option.some_or]
  rw [hend, hlast, List.getLast?_concat, Option.some.injEq]
  constructor
  · intro h
    exact (mem_utf8EncodeChar_iff ha).mp (List.mem_of_getLast? h)
  · rintro rfl
    rw [utf8EncodeChar_of_le (Nat.le_of_lt_succ ha), List.getLast?_singleton]

/-- A text has no NUL exactly if its UTF-8 form has no zero byte. -/
theorem zero_mem_ofString_iff {s : String} : 0 ∈ ofString s ↔ '\x00' ∈ s.toList :=
  mem_ofString_iff (a := '\x00') (by decide)

/-- A text has no line feed exactly if its UTF-8 form has none. -/
theorem feed_mem_ofString_iff {s : String} : 0x0A ∈ ofString s ↔ '\n' ∈ s.toList :=
  mem_ofString_iff (a := '\n') (by decide)

end Bytes

end ObjectStore
