import ObjectStore.Canonical
import ObjectStore.Proofs.Separators

/-!
# Canonical forms are read exactly

The two directions of the canonical form, over all byte strings.

* `read_form`: the form of an object of a valid kind reads back as that object.
* `form_of_read`: whatever reads as an object is the form of that object, and its kind is valid.
* `form_injective`: objects of valid kinds with the same form are the same object, so two objects
  that share an id are a collision of the hash (`Sha1.Collision`).
-/

namespace ObjectStore

/-- Two byte strings with the same digest. -/
def Sha1.Collision (a b : Bytes) : Prop := a ≠ b ∧ Sha1.digest a = Sha1.digest b

instance (a b : Bytes) : Decidable (Sha1.Collision a b) := inferInstanceAs (Decidable (_ ∧ _))

namespace Canonical

/-! ## The parts of a header -/

/-- The texts that are kinds: not empty, with neither a space nor a zero byte. -/
theorem isKind_iff {kind : String} :
    isKind kind = true ↔ kind ≠ "" ∧ ' ' ∉ kind.toList ∧ '\x00' ∉ kind.toList := by
  simp only [isKind, Bool.and_eq_true, Bool.not_eq_true', Bool.eq_false_iff, ne_eq,
    String.isEmpty_iff, List.all_eq_true, bne_iff_ne]
  constructor
  · rintro ⟨hne, hall⟩
    exact ⟨hne, fun h => (hall _ h).1 rfl, fun h => (hall _ h).2 rfl⟩
  · rintro ⟨hne, hspace, hnul⟩
    exact ⟨hne, fun c hc => ⟨fun h => hspace (h ▸ hc), fun h => hnul (h ▸ hc)⟩⟩

/-- A character that is no digit does not stand in a written size. -/
theorem not_mem_toDigits {c : Char} (h : Numeral.isDigit 10 c = false) (n : Nat) :
    c ∉ Nat.toDigits 10 n := by
  intro hc
  have := Numeral.isDigit_of_mem_toDigits (by decide) (by decide) n hc
  rw [h] at this
  cases this

/-- The sizes that are read are those below the bound, written with the fewest digits. -/
theorem size?_eq_some_iff {text : List Char} {n : Nat} :
    size? text = some n ↔ text = Nat.toDigits 10 n ∧ n < sizeBound := by
  unfold size?
  constructor
  · intro h
    split at h
    · split_ifs at h with hn
      cases h
      exact ⟨hn.2.symm, hn.1⟩
    · cases h
  · rintro ⟨rfl, hn⟩
    rw [Numeral.value?_toDigits (by decide) (by decide)]
    simp [hn]

/-- A header as text, without its NUL. -/
def headerText (kind : String) (size : Nat) : String := kind ++ " " ++ Numeral.decimal size

/-- The characters of a header: the kind, a space and the size. -/
theorem toList_headerText (kind : String) (size : Nat) :
    (headerText kind size).toList = kind.toList ++ ' ' :: Nat.toDigits 10 size := by
  simp [headerText, Numeral.decimal]

/-- The canonical form is the header, a zero byte and the payload. -/
theorem form_eq (kind : String) (payload : Bytes) :
    form kind payload = Bytes.ofString (headerText kind payload.length) ++ 0 :: payload := by
  have hnul : Bytes.ofString "\x00" = [0] := rfl
  simp [form, header, headerText, hnul]

/-- The header of a valid kind holds no zero byte, so it ends at the first one. -/
theorem zero_not_mem_headerText {kind : String} (h : isKind kind = true) (size : Nat) :
    0 ∉ Bytes.ofString (headerText kind size) := by
  rw [Bytes.zero_mem_ofString_iff, toList_headerText]
  intro hmem
  rcases List.mem_append.mp hmem with hk | hd
  · exact (isKind_iff.mp h).2.2 hk
  · rcases List.mem_cons.mp hd with hs | hd
    · cases hs
    · exact not_mem_toDigits (by decide) size hd

/-! ## Reading a form -/

/-- The form of an object of a valid kind reads back as that object. -/
theorem read_form {kind : String} {payload : Bytes} (hkind : isKind kind = true)
    (hsize : payload.length < sizeBound) : read (form kind payload) = .ok ⟨kind, payload⟩ := by
  obtain ⟨hne, hspace, -⟩ := isKind_iff.mp hkind
  have hcut : cutAt? 0 (form kind payload)
      = some (Bytes.ofString (headerText kind payload.length), payload) := by
    rw [form_eq]
    exact cutAt?_append (zero_not_mem_headerText hkind _) _
  have htext : cutAt? ' ' (headerText kind payload.length).toList
      = some (kind.toList, Nat.toDigits 10 payload.length) := by
    rw [toList_headerText]
    exact cutAt?_append hspace _
  have hsize? : size? (Nat.toDigits 10 payload.length) = some payload.length :=
    size?_eq_some_iff.mpr ⟨rfl, hsize⟩
  obtain ⟨c, rest, hlist⟩ : ∃ c rest, kind.toList = c :: rest := by
    cases hlist : kind.toList with
    | nil => exact absurd (String.toList_eq_nil_iff.mp hlist) hne
    | cons c rest => exact ⟨c, rest, rfl⟩
  rw [hlist] at htext
  simp only [read, hcut, Bytes.toText?_ofString, htext, hsize?, if_true]
  rw [← hlist, String.ofList_toList]

/-! ## What reads is a form -/

/-- Whatever reads as an object is the form of that object, and its kind is valid. -/
theorem form_of_read {b : Bytes} {object : RawObject} (h : read b = .ok object) :
    isKind object.kind = true ∧ object.payload.length < sizeBound ∧
      b = form object.kind object.payload := by
  unfold read at h
  split at h
  · cases h
  rename_i head payload hcut
  obtain ⟨rfl, hzero⟩ := cutAt?_eq_some_iff.mp hcut
  split at h
  · cases h
  rename_i text htext
  rw [Bytes.toText?_eq_some_iff] at htext
  subst htext
  rw [Bytes.zero_mem_ofString_iff] at hzero
  split at h
  · cases h
  · cases h
  rename_i kind size hne hspace
  obtain ⟨hlist, hnospace⟩ := cutAt?_eq_some_iff.mp hspace
  split at h
  · cases h
  rename_i declared hsize
  obtain ⟨rfl, hbound⟩ := size?_eq_some_iff.mp hsize
  split_ifs at h with hlen
  cases h
  subst hlen
  refine ⟨isKind_iff.mpr ⟨?_, ?_, ?_⟩, hbound, ?_⟩
  · rw [ne_eq, String.ofList_eq_empty_iff]
    exact hne
  · rwa [String.toList_ofList]
  · rw [String.toList_ofList]
    intro hm
    exact hzero (hlist ▸ List.mem_append_left _ hm)
  · rw [form_eq]
    congr 2
    apply String.toList_injective
    rw [toList_headerText, String.toList_ofList]
    exact hlist

/-- Objects of valid kinds with the same form are the same object. -/
theorem form_injective {kind kind' : String} {payload payload' : Bytes} (h : isKind kind = true)
    (h' : isKind kind' = true) (heq : form kind payload = form kind' payload') :
    kind = kind' ∧ payload = payload' := by
  have hcut := cutAt?_append (zero_not_mem_headerText h payload.length) payload
  rw [← form_eq, heq, form_eq, cutAt?_append (zero_not_mem_headerText h' payload'.length),
    Option.some.injEq, Prod.mk.injEq] at hcut
  obtain ⟨hhead, hpayload⟩ := hcut
  have hlist := congrArg String.toList (Bytes.ofString_injective hhead)
  rw [toList_headerText, toList_headerText] at hlist
  have hcut := cutAt?_append (isKind_iff.mp h).2.1 (Nat.toDigits 10 payload.length)
  rw [← hlist, cutAt?_append (isKind_iff.mp h').2.1, Option.some.injEq, Prod.mk.injEq] at hcut
  exact ⟨(String.toList_injective hcut.1).symm, hpayload.symm⟩

/-- Two canonical forms have the same id if they are the same or a collision. -/
theorem idOf_eq_idOf_iff {kind kind' : String} {payload payload' : Bytes} :
    idOf kind payload = idOf kind' payload' ↔
      form kind payload = form kind' payload' ∨
        Sha1.Collision (form kind payload) (form kind' payload') := by
  simp only [idOf, ObjectId.ofCanonical, ObjectId.mk.injEq, Sha1.Collision]
  by_cases h : form kind payload = form kind' payload'
  · simp [h]
  · simp [h]

/-- Reading accepts exactly the forms of objects of valid kinds, and so a form determines its
object: two objects share an id only by being the same or by a collision of the hash. -/
theorem read_eq_ok_iff_form :
    (∀ (b : Bytes) (kind : String) (payload : Bytes),
      read b = .ok ⟨kind, payload⟩ ↔
        isKind kind = true ∧ payload.length < sizeBound ∧ b = form kind payload) ∧
    ∀ (kind kind' : String) (payload payload' : Bytes), isKind kind = true → isKind kind' = true →
      (form kind payload = form kind' payload' ↔ kind = kind' ∧ payload = payload') ∧
      (idOf kind payload = idOf kind' payload' ↔
        (kind = kind' ∧ payload = payload') ∨
          Sha1.Collision (form kind payload) (form kind' payload')) := by
  refine ⟨fun b kind payload => ⟨fun h => form_of_read h, ?_⟩, ?_⟩
  · rintro ⟨hkind, hsize, rfl⟩
    exact read_form hkind hsize
  intro kind kind' payload payload' h h'
  have hform : form kind payload = form kind' payload' ↔ kind = kind' ∧ payload = payload' :=
    ⟨form_injective h h', by rintro ⟨rfl, rfl⟩; rfl⟩
  refine ⟨hform, ?_⟩
  rw [← hform, idOf_eq_idOf_iff]

/-- Payloads of the same bytes under different kinds, one with the separators of a header in it. -/
theorem read_eq_ok_iff_form_blob_note :
    isKind "blob" = true ∧ isKind "note" = true ∧
      read (form "blob" [0x20, 0, 0x39]) = .ok ⟨"blob", [0x20, 0, 0x39]⟩ ∧
      form "blob" [0x20, 0, 0x39] ≠ form "note" [0x20, 0, 0x39] ∧
      (idOf "blob" [0x20, 0, 0x39] = idOf "note" [0x20, 0, 0x39] →
        Sha1.Collision (form "blob" [0x20, 0, 0x39]) (form "note" [0x20, 0, 0x39])) := by
  have hblob : isKind "blob" = true := by decide
  have hnote : isKind "note" = true := by decide
  obtain ⟨hread, hsame⟩ := read_eq_ok_iff_form
  obtain ⟨hform, hid⟩ := hsame "blob" "note" [0x20, 0, 0x39] [0x20, 0, 0x39] hblob hnote
  have hne : ¬ ("blob" = "note" ∧ ([0x20, 0, 0x39] : Bytes) = [0x20, 0, 0x39]) := by decide
  refine ⟨hblob, hnote, (hread _ _ _).mpr ⟨hblob, by decide, rfl⟩, fun h => hne (hform.mp h), ?_⟩
  exact fun h => (hid.mp h).resolve_left hne

end Canonical

end ObjectStore
