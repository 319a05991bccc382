import ObjectStore.Proofs.Results
import ObjectStore.Proofs.Timestamp
import ObjectStore.Signature

/-!
# Signatures read back

A signature is cut at the first `<` and the last `>` of its text (`parse_of_parts`). Neither the name
nor the email holds one of them, so what `Signature.text` writes is cut where it was put together,
and the signature reads back (`parse_text`). Seconds 60 have no raw form: a signature at such a
moment is left out.

`Signature.IsGiven` are the signatures that can be had from text alone, read as a whole or made of
parts; none of them lies in a second 60 (`IsGiven.leap`).
-/

namespace ObjectStore.Signature

variable {s : Signature}

/-- A signature that was read from a text, or made of a name, an email and a moment that was read
from its raw form. -/
inductive IsGiven : Signature → Prop
  | read {s : Signature} {text : String} (h : parse text = .ok s) : IsGiven s
  | made {s : Signature} {name email date : String} {time : Timestamp}
      (hdate : Timestamp.parseRaw date = .ok time) (h : make name email time = .ok s) : IsGiven s

/-- Parts make a signature exactly if neither the name nor the email holds a delimiter. -/
theorem make_eq_ok_iff {name email : String} {time : Timestamp} :
    make name email time = .ok s ↔
      (isPlain name = true ∧ isPlain email = true) ∧
        s.name = Text.trim name ∧ s.email = email ∧ s.time = time := by
  unfold make
  split_ifs with hplain
  · constructor
    · intro h
      cases h
      exact ⟨hplain, rfl, rfl, rfl⟩
    · cases s with
      | mk name' email' time' =>
        rintro ⟨-, rfl, rfl, rfl⟩
        rfl
  · exact iff_of_false (fun h => by cases h) fun h => hplain h.1

/-- No signature that was given as text lies in a second 60. -/
theorem IsGiven.leap (h : IsGiven s) : s.time.leap = false := by
  cases h with
  | read h =>
    unfold parse at h
    obtain ⟨⟨name, afterName⟩, -, h⟩ := bind_eq_ok_iff.mp h
    obtain ⟨⟨date, email⟩, -, h⟩ := bind_eq_ok_iff.mp h
    obtain ⟨time, hdate, hmake⟩ := bind_eq_ok_iff.mp h
    rw [(make_eq_ok_iff.mp hmake).2.2.2]
    exact Timestamp.leap_of_parseRaw hdate
  | made hdate h =>
    rw [(make_eq_ok_iff.mp h).2.2.2]
    exact Timestamp.leap_of_parseRaw hdate

/-! ## Delimiters -/

/-- A plain text has no delimiter. -/
theorem isDelimiter_of_isPlain {text : String} (h : isPlain text = true) {c : Char}
    (hc : c ∈ text.toList) : isDelimiter c = false := by
  rw [isPlain, List.all_eq_true] at h
  simpa using h c hc

/-- The text of a signature, with the characters that delimit its parts in view. -/
theorem toList_text (s : Signature) :
    s.text.toList = (s.name.toList ++ [' ']) ++ '<' ::
      (s.email.toList ++ '>' :: ' ' :: s.time.raw) := by
  simp [text, identity]

/-- No digit is a delimiter. -/
theorem isDelimiter_of_isDigit {c : Char} (h : Numeral.isDigit 10 c = true) :
    isDelimiter c = false := by
  have hne : ∀ d : Char, Numeral.isDigit 10 d = false → (c == d) = false := by
    intro d hd
    rw [beq_eq_false_iff_ne]
    rintro rfl
    rw [h] at hd
    cases hd
  simp only [isDelimiter, hne '<' rfl, hne '>' rfl, hne '\n' rfl, hne '\x00' rfl, Bool.or_false]

/-- The last character of the text of a signature ends its offset. -/
theorem getLast?_text {c : Char} (h : c ∈ s.text.toList.getLast?) : c ∈ s.time.raw := by
  have htext : s.text.toList = (s.name.toList ++ [' ', '<'] ++ s.email.toList ++ ['>', ' '])
      ++ s.time.raw := by
    simp [text, identity]
  have hraw : s.time.raw ≠ [] := by
    simp [Timestamp.raw]
  rw [htext, List.getLast?_append_of_ne_nil _ hraw] at h
  exact List.mem_of_mem_getLast? h

/-- Nothing delimits anything in the text of a signature but its own brackets. -/
theorem mem_text {c : Char} (h : c ∈ s.text.toList) : c = '<' ∨ c = '>' ∨ isDelimiter c = false := by
  rw [toList_text] at h
  simp only [List.mem_append, List.mem_cons, List.not_mem_nil, or_false] at h
  rcases h with (h | rfl) | rfl | h | rfl | rfl | h
  · exact Or.inr (Or.inr (isDelimiter_of_isPlain s.name_plain h))
  · simp [isDelimiter]
  · simp
  · exact Or.inr (Or.inr (isDelimiter_of_isPlain s.email_plain h))
  · simp
  · simp [isDelimiter]
  · rcases Timestamp.mem_raw h with rfl | rfl | rfl | h
    · simp [isDelimiter]
    · simp [isDelimiter]
    · simp [isDelimiter]
    · exact Or.inr (Or.inr (isDelimiter_of_isDigit h))

/-- The parts of a signature make that signature. -/
theorem make_self (s : Signature) : make s.name s.email s.time = .ok s :=
  make_eq_ok_iff.mpr ⟨⟨s.name_plain, s.email_plain⟩, s.name_trimmed.symm, rfl, rfl⟩

/-- What stands in front of the first `<` is the name, with blanks at its ends, and what stands behind
the last `>` is the date. -/
theorem parse_of_parts {name email date : List Char} {time : Timestamp} (hopen : '<' ∉ name)
    (hclose : '>' ∉ date) (hdate : Timestamp.ofRaw? date = some time) :
    parse (String.ofList (name ++ '<' :: (email ++ '>' :: date)))
      = make (Text.trim (String.ofList name)) (String.ofList email) time := by
  have hname : cutAt? '<' (name ++ '<' :: (email ++ '>' :: date))
      = some (name, email ++ '>' :: date) := cutAt?_append hopen _
  have hemail : cutAt? '>' (email ++ '>' :: date).reverse = some (date.reverse, email.reverse) := by
    rw [List.reverse_append, List.reverse_cons, List.append_assoc]
    exact cutAt?_append (by rwa [List.mem_reverse]) _
  have hparse : Timestamp.parseRaw (String.ofList date) = .ok time := by
    rw [Timestamp.parseRaw, String.toList_ofList, hdate]
  unfold parse
  rw [String.toList_ofList, hname]
  simp only [Option.elim_some, ok_bind, hemail, List.reverse_reverse, hparse]

/-- The name in front of its space is read back. -/
theorem trim_name (s : Signature) : Text.trim (String.ofList (s.name.toList ++ [' '])) = s.name := by
  rw [Text.trim, String.toList_ofList, Text.trimmed_concat (by decide)]
  exact s.name_trimmed

/-- The text of a signature reads back as the signature, unless that lies in a second 60. -/
theorem parse_text (h : s.time.leap = false) : parse s.text = .ok s := by
  have hopen : '<' ∉ s.name.toList ++ [' '] := by
    intro hmem
    rcases List.mem_append.mp hmem with hmem | hmem
    · cases isDelimiter_of_isPlain s.name_plain hmem
    · cases List.mem_singleton.mp hmem
  have hclose : '>' ∉ ' ' :: s.time.raw := by
    intro hmem
    rcases List.mem_cons.mp hmem with hmem | hmem
    · cases hmem
    · rcases Timestamp.mem_raw hmem with hmem | hmem | hmem | hmem <;> cases hmem
  have hdate : Timestamp.ofRaw? (' ' :: s.time.raw) = some s.time := by
    apply Timestamp.ofRaw?_of_trimmed h
    rw [Text.trimmed_cons (by decide), Timestamp.trimmed_raw]
  have htext : s.text = String.ofList (s.name.toList ++ [' '] ++ '<' ::
      (s.email.toList ++ '>' :: ' ' :: s.time.raw)) := by
    rw [← toList_text, String.ofList_toList]
  rw [htext, parse_of_parts hopen hclose hdate, trim_name, String.ofList_toList, make_self]

end ObjectStore.Signature
