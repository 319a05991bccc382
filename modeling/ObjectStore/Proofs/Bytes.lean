import ObjectStore.Proofs.Separators

/-!
# Texts in the order of their bytes

UTF-8 keeps the order of characters: a greater one has a greater form, whatever stands behind the
two (`Bytes.utf8EncodeChar_append_lt`). So texts are ordered as their bytes are
(`Bytes.ofString_lt`).

Things that are sorted by a text come out in ascending order, and strictly so if they are told apart
by it (`pairwise_mergeSort_lt`).
-/

namespace ObjectStore

namespace Bytes

/-- The encodings of two characters are in the order of the characters, whatever follows. -/
theorem utf8EncodeChar_append_lt {c d : Char} (h : c < d) (x y : Bytes) :
    String.utf8EncodeChar c ++ x < String.utf8EncodeChar d ++ y := by
  have hvalue : c.val.toNat < d.val.toNat := h
  have hlast : d.val.toNat < 0x110000 := by
    have hvalid := d.valid
    simp only [UInt32.isValidChar, Nat.isValidChar] at hvalid
    omega
  -- With the value written as digits to the base 64, each form holds some of these, and the first
  -- byte that differs is greater.
  have htwo : ∀ n, n / 4096 = n / 64 / 64 := fun n => by omega
  have hthree : ∀ n, n / 262144 = n / 64 / 64 / 64 := fun n => by omega
  simp only [String.utf8EncodeChar, htwo, hthree]
  generalize c.val.toNat = v at *
  generalize d.val.toNat = w at *
  split_ifs <;>
    simp (disch := omega) only [List.cons_append, List.nil_append, List.cons_lt_cons_iff,
      UInt8.lt_iff_toNat_lt, ← UInt8.toNat_inj, UInt8.toNat_ofNat', Nat.mod_eq_of_lt] <;>
    omega

/-- The encodings of two texts are in the order of the texts. -/
theorem flatMap_utf8EncodeChar_lt {a b : List Char} (h : a < b) :
    a.flatMap String.utf8EncodeChar < b.flatMap String.utf8EncodeChar := by
  induction h with
  | @nil c l =>
    rw [List.flatMap_nil, List.flatMap_cons]
    cases hc : String.utf8EncodeChar c with
    | nil => exact absurd hc String.utf8EncodeChar_ne_nil
    | cons byte rest => exact List.nil_lt_cons _ _
  | rel hlt => exact utf8EncodeChar_append_lt hlt _ _
  | cons _ ih =>
    rw [List.flatMap_cons, List.flatMap_cons]
    exact List.append_left_lt ih

/-- A greater text has greater bytes. -/
theorem ofString_lt {a b : String} (h : a < b) : ofString a < ofString b := by
  rw [ofString_eq_flatMap, ofString_eq_flatMap]
  exact flatMap_utf8EncodeChar_lt (String.lt_iff.mp h)

end Bytes

/-! ## Sorting by a text -/

section

variable {α : Type} {text : α → String} {le : α → α → Bool}

/-- Sorting by an order of texts gives a row in that order. -/
theorem pairwise_mergeSort_le (hle : ∀ a b, le a b = decide (text a ≤ text b)) (l : List α) :
    (l.mergeSort le).Pairwise fun a b => text a ≤ text b := by
  have htrans : ∀ a b c, le a b = true → le b c = true → le a c = true := by
    intro a b c hab hbc
    rw [hle, decide_eq_true_eq] at *
    exact String.le_trans hab hbc
  have htotal : ∀ a b, (le a b || le b a) = true := by
    intro a b
    rw [hle, hle, Bool.or_eq_true, decide_eq_true_eq, decide_eq_true_eq]
    exact String.le_total (text a) (text b)
  refine (List.pairwise_mergeSort htrans htotal l).imp fun {a b} hab => ?_
  rwa [hle, decide_eq_true_eq] at hab

/-- Things that are told apart by their texts, and of which none is there twice, are sorted to a
strictly ascending row. -/
theorem pairwise_mergeSort_lt (hle : ∀ a b, le a b = decide (text a ≤ text b))
    (htext : ∀ a b, text a = text b → a = b) {l : List α} (h : l.Nodup) :
    (l.mergeSort le).Pairwise fun a b => text a < text b := by
  have hnodup : (l.mergeSort le).Nodup := (List.mergeSort_perm l le).nodup_iff.mpr h
  refine ((pairwise_mergeSort_le hle l).and hnodup).imp fun {a b} hab => ?_
  obtain ⟨hab, hne⟩ := hab
  rw [← String.not_le]
  exact fun hba => hne (htext a b (String.le_antisymm hab hba))

end

end ObjectStore
