import ObjectStore.Proofs.Commit.Headers

/-!
# What is wrong with a commit that cannot be read

A payload that is no commit is reported as malformed, unless the trouble is with a signature: that
is reported as an invalid signature. Header lines are taken in one after the other, so the first
line that is no good decides which of the two it is.

* `Partial.take_cases`: what one line does. It is readable, or it spoils the commit with a bad
  signature, or the commit is malformed.
* `foldlM_take_cases`: what a row of lines does, by induction from there.
* `decode_cases`: the same of a payload, which is spoilt if its first bad line is for a signature
  (`IsSpoilt`).
-/

namespace ObjectStore.Commit

/-! ## Header lines -/

/-- The keys of header lines that hold an id. -/
def idKeys : List (List Char) := [['t', 'r', 'e', 'e'], ['p', 'a', 'r', 'e', 'n', 't']]

/-- The keys of header lines that hold a signature. -/
def signatureKeys : List (List Char) :=
  [['a', 'u', 't', 'h', 'o', 'r'], ['c', 'o', 'm', 'm', 'i', 't', 't', 'e', 'r']]

/-- A line that can stand in a header: it continues another one, or its key is not known, or its
value is what its key asks for. -/
inductive IsReadable : List Char → Prop
  | continued {rest : List Char} : IsReadable (' ' :: rest)
  | unknown {key value : List Char} (hspace : ' ' ∉ key) (hid : key ∉ idKeys)
    (hsignature : key ∉ signatureKeys) : IsReadable (key ++ ' ' :: value)
  | id {key value : List Char} {id : ObjectId} (hkey : key ∈ idKeys)
    (hvalue : ObjectId.parse (String.ofList value) = .ok id) : IsReadable (key ++ ' ' :: value)
  | signature {key value : List Char} {s : Signature} (hkey : key ∈ signatureKeys)
    (hvalue : Signature.parse (String.ofList value) = .ok s) : IsReadable (key ++ ' ' :: value)

/-- A line for a signature with something else in it. -/
def IsBadSignature (line : List Char) (fault : SignatureFault) : Prop :=
  ∃ key ∈ signatureKeys, ∃ value, line = key ++ ' ' :: value ∧
    Signature.parse (String.ofList value) = .error fault

namespace Partial

variable (p : Partial) {key value line : List Char}

/-- A line that starts with a space is passed over. -/
theorem take_continued (rest : List Char) : p.take (' ' :: rest) = .ok p := rfl

/-- A line with a key that no header of a commit has is passed over. -/
theorem take_unknown (hspace : ' ' ∉ key) (hid : key ∉ idKeys) (hsignature : key ∉ signatureKeys) :
    p.take (key ++ ' ' :: value) = .ok p := by
  simp only [idKeys, signatureKeys, List.mem_cons, List.not_mem_nil, or_false, not_or]
    at hid hsignature
  unfold take
  rw [cutAt?_append hspace]
  simp only [hid, hsignature, if_false, ite_self]

/-- A line for an id is taken in if its value is one. -/
theorem take_id (hkey : key ∈ idKeys) (value : List Char) :
    ∃ add : ObjectId → Partial, p.take (key ++ ' ' :: value) = (headerId value).map add := by
  simp only [idKeys, List.mem_cons, List.not_mem_nil, or_false] at hkey
  rcases hkey with rfl | rfl
  · exact ⟨_, p.take_tree_line value⟩
  · exact ⟨_, p.take_parent_line value⟩

/-- A line for a signature is taken in if its value is one. -/
theorem take_signature (hkey : key ∈ signatureKeys) (value : List Char) :
    ∃ add : Signature → Partial,
      p.take (key ++ ' ' :: value) = (headerSignature value).map add := by
  simp only [signatureKeys, List.mem_cons, List.not_mem_nil, or_false] at hkey
  rcases hkey with rfl | rfl
  · exact ⟨_, p.take_author_line value⟩
  · exact ⟨_, p.take_committer_line value⟩

/-- A readable line is taken, whatever was read before it. -/
theorem take_of_isReadable (h : IsReadable line) : ∃ p', p.take line = .ok p' := by
  cases h with
  | continued => exact ⟨p, p.take_continued _⟩
  | unknown hspace hid hsignature => exact ⟨p, p.take_unknown hspace hid hsignature⟩
  | @id key value id hkey hvalue =>
    obtain ⟨add, hadd⟩ := p.take_id hkey value
    refine ⟨add id, ?_⟩
    rw [hadd, headerId, hvalue]
    rfl
  | @signature key value s hkey hvalue =>
    obtain ⟨add, hadd⟩ := p.take_signature hkey value
    refine ⟨add s, ?_⟩
    rw [hadd, headerSignature, hvalue]
    rfl

/-- The fault of a signature is passed on as it is. -/
theorem take_of_isBadSignature {fault : SignatureFault} (h : IsBadSignature line fault) :
    p.take line = .error (.invalidSignature fault) := by
  obtain ⟨key, hkey, value, rfl, hvalue⟩ := h
  obtain ⟨add, hadd⟩ := p.take_signature hkey value
  rw [hadd, headerSignature, hvalue]
  rfl

/-- What comes of one header line, whatever the ones before it said. -/
theorem take_cases (line : List Char) :
    (IsReadable line ∧ ∃ p', p.take line = .ok p') ∨
      (∃ fault, IsBadSignature line fault ∧ p.take line = .error (.invalidSignature fault)) ∨
      ∃ fault, p.take line = .error (.malformed (.commit fault)) := by
  have readable : IsReadable line → IsReadable line ∧ ∃ p', p.take line = .ok p' := fun h =>
    ⟨h, p.take_of_isReadable h⟩
  by_cases hhead : line.head? = some ' '
  · obtain ⟨rest, rfl⟩ := List.head?_eq_some_iff.mp hhead
    exact Or.inl (readable .continued)
  cases hcut : cutAt? ' ' line with
  | none =>
    refine Or.inr (Or.inr ⟨.malformedLine (String.ofList line), ?_⟩)
    rw [take, if_neg hhead, hcut]
  | some pair =>
    obtain ⟨key, value⟩ := pair
    obtain ⟨rfl, hspace⟩ := cutAt?_eq_some_iff.mp hcut
    by_cases hid : key ∈ idKeys
    · cases hvalue : ObjectId.parse (String.ofList value) with
      | ok id => exact Or.inl (readable (.id hid hvalue))
      | error fault =>
        obtain ⟨add, hadd⟩ := p.take_id hid value
        refine Or.inr (Or.inr ⟨.badId fault, ?_⟩)
        rw [hadd, headerId, hvalue]
        rfl
    by_cases hsignature : key ∈ signatureKeys
    · cases hvalue : Signature.parse (String.ofList value) with
      | ok s => exact Or.inl (readable (.signature hsignature hvalue))
      | error fault =>
        have hbad : IsBadSignature (key ++ ' ' :: value) fault :=
          ⟨key, hsignature, value, rfl, hvalue⟩
        exact Or.inr (Or.inl ⟨fault, hbad, p.take_of_isBadSignature hbad⟩)
    exact Or.inl (readable (.unknown hspace hid hsignature))

end Partial

/-! ## Rows of header lines -/

/-- The first line that cannot be read is one for a signature. -/
def IsSpoiltHeader (lines : List (List Char)) (fault : SignatureFault) : Prop :=
  ∃ before line after, lines = before ++ line :: after ∧ (∀ l ∈ before, IsReadable l) ∧
    IsBadSignature line fault

/-- Readable lines in front of the fault make no difference. -/
theorem IsSpoiltHeader.cons {line : List Char} {lines : List (List Char)} {fault : SignatureFault}
    (hline : IsReadable line) (h : IsSpoiltHeader lines fault) :
    IsSpoiltHeader (line :: lines) fault := by
  obtain ⟨before, bad, after, rfl, hbefore, hbad⟩ := h
  exact ⟨line :: before, bad, after, rfl, List.forall_mem_cons.mpr ⟨hline, hbefore⟩, hbad⟩

/-- Readable lines are all taken. -/
theorem foldlM_take_of_isReadable {lines : List (List Char)} (h : ∀ l ∈ lines, IsReadable l)
    (p : Partial) : ∃ p', lines.foldlM Partial.take p = .ok p' := by
  induction lines generalizing p with
  | nil => exact ⟨p, rfl⟩
  | cons line lines ih =>
    rw [List.forall_mem_cons] at h
    obtain ⟨p', hp'⟩ := p.take_of_isReadable h.1
    rw [List.foldlM_cons, hp', ok_bind]
    exact ih h.2 p'

/-- Lines up to a fault give that fault, whatever follows it. -/
theorem foldlM_take_of_isSpoiltHeader {lines : List (List Char)} {fault : SignatureFault}
    (h : IsSpoiltHeader lines fault) (p : Partial) :
    lines.foldlM Partial.take p = .error (.invalidSignature fault) := by
  obtain ⟨before, line, after, rfl, hbefore, hbad⟩ := h
  obtain ⟨p', hp'⟩ := foldlM_take_of_isReadable hbefore p
  rw [List.foldlM_append, hp', ok_bind, List.foldlM_cons, p'.take_of_isBadSignature hbad,
    error_bind]

/-- What comes of a row of header lines. -/
theorem foldlM_take_cases (lines : List (List Char)) (p : Partial) :
    (∃ p', lines.foldlM Partial.take p = .ok p') ∨
      (∃ fault, IsSpoiltHeader lines fault ∧
        lines.foldlM Partial.take p = .error (.invalidSignature fault)) ∨
      ∃ fault, lines.foldlM Partial.take p = .error (.malformed (.commit fault)) := by
  induction lines generalizing p with
  | nil => exact Or.inl ⟨p, rfl⟩
  | cons line lines ih =>
    rw [List.foldlM_cons]
    rcases p.take_cases line with ⟨hline, p', hp'⟩ | ⟨fault, hbad, hp⟩ | ⟨fault, hp⟩
    · rw [hp', ok_bind]
      exact (ih p').imp_right (Or.imp_left fun ⟨fault, h, heq⟩ => ⟨fault, h.cons hline, heq⟩)
    · rw [hp, error_bind]
      exact Or.inr (Or.inl ⟨fault, ⟨[], line, lines, rfl, by simp, hbad⟩, rfl⟩)
    · rw [hp, error_bind]
      exact Or.inr (Or.inr ⟨fault, rfl⟩)

/-! ## Payloads -/

/-- The payload is text with headers, and the first header line that cannot be read is one for a
signature. -/
def IsSpoilt (payload : Bytes) (fault : SignatureFault) : Prop :=
  ∃ (text : String) (headers message : List Char), payload = Bytes.ofString text ∧
    cutBlankLine text.toList = some (headers, message) ∧
    IsSpoiltHeader (Text.textLines headers) fault

variable {payload : Bytes} {fault : SignatureFault}

/-- A payload that is spoilt is not read, and the error is that of its signature. -/
theorem decode_of_isSpoilt (h : IsSpoilt payload fault) :
    decode payload = .error (.invalidSignature fault) := by
  obtain ⟨text, headers, message, rfl, hcut, hheader⟩ := h
  have hfold := foldlM_take_of_isSpoiltHeader hheader {}
  rw [decode, Bytes.toText?_ofString]
  simp only [ofText, hcut, Option.elim_some, ok_bind, hfold, error_bind]

/-- A payload that is no commit is spoilt by a signature or malformed. -/
theorem decode_cases (payload : Bytes) :
    (∃ commit, decode payload = .ok commit) ∨
      (∃ fault, IsSpoilt payload fault ∧ decode payload = .error (.invalidSignature fault)) ∨
      ∃ fault, decode payload = .error (.malformed (.commit fault)) := by
  unfold decode
  cases htext : Bytes.toText? payload with
  | none => exact Or.inr (Or.inr ⟨_, rfl⟩)
  | some text =>
    simp only [ofText]
    cases hcut : cutBlankLine text.toList with
    | none => exact Or.inr (Or.inr ⟨_, rfl⟩)
    | some parts =>
      obtain ⟨headers, message⟩ := parts
      simp only [Option.elim_some, ok_bind]
      rcases foldlM_take_cases (Text.textLines headers) {} with
        ⟨p, hp⟩ | ⟨fault, hheader, hp⟩ | ⟨fault, hp⟩
      · rw [hp, ok_bind]
        cases p.finish message with
        | ok commit => exact Or.inl ⟨commit, rfl⟩
        | error fault => exact Or.inr (Or.inr ⟨fault, rfl⟩)
      · have hspoilt : IsSpoilt payload fault :=
          ⟨text, headers, message, Bytes.toText?_eq_some_iff.mp htext, hcut, hheader⟩
        rw [hp]
        exact Or.inr (Or.inl ⟨fault, hspoilt, rfl⟩)
      · rw [hp]
        exact Or.inr (Or.inr ⟨fault, rfl⟩)

end ObjectStore.Commit
