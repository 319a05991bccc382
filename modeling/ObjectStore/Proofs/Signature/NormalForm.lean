import ObjectStore.Proofs.Signature

/-!
# The normal form of signatures

One signature can be spelled in many ways: blanks may surround the name and the date, and the date
has several spellings itself (`Timestamp.Spelling`). Of all these, `Signature.text` writes one, which
is the normal form of the others: it reads as the same signature (`HasNormalText`), so reading and
writing it again changes nothing.

This holds of every signature that was given as text, be it read as a whole or made of a name, an
email and a date (`IsGiven.hasNormalText`). A signature made at the present moment may lie in a
second 60, which no date spells, and is not spoken of here.
-/

namespace ObjectStore.Signature

variable {s : Signature}

/-- The text of a signature reads as that signature, and thus as one with the same text. It stays on
its line and holds no NUL. -/
structure HasNormalText (s : Signature) : Prop where
  reads_back : parse s.text = .ok s
  no_feed : '\n' ∉ s.text.toList
  no_nul : '\x00' ∉ s.text.toList

/-- Every signature that was given as text has a normal form. -/
theorem IsGiven.hasNormalText (h : s.IsGiven) : s.HasNormalText where
  reads_back := parse_text h.leap
  no_feed hfeed := by
    rcases mem_text hfeed with hc | hc | hc <;> cases hc
  no_nul hnul := by
    rcases mem_text hnul with hc | hc | hc <;> cases hc

/-! ## Spellings -/

/-- A spelling of a signature: a name and an email without delimiters, and a date between blanks. -/
structure Spelling where
  name : String
  email : String
  date : String
  moment : Timestamp.Spelling
  name_plain : isPlain name = true
  email_plain : isPlain email = true
  trimmed_date : Text.trimmed date.toList = moment.text

namespace Spelling

variable (spelling : Spelling)

/-- The text of a spelling. -/
def text : String := spelling.name ++ "<" ++ spelling.email ++ ">" ++ spelling.date

/-- The signature that is spelled. -/
def signature : Signature where
  name := Text.trim spelling.name
  email := spelling.email
  time := spelling.moment.time
  name_plain := isPlain_trim spelling.name_plain
  email_plain := spelling.email_plain
  name_trimmed := by rw [Text.trim, Text.trim, String.toList_ofList, Text.trimmed_trimmed]

/-- A spelled date is read as its moment. -/
theorem ofRaw?_date : Timestamp.ofRaw? spelling.date.toList = some spelling.moment.time :=
  Timestamp.Spelling.ofRaw?_of_trimmed spelling.trimmed_date

/-- A spelled date is accepted and read as its moment. -/
theorem parseRaw_date : Timestamp.parseRaw spelling.date = .ok spelling.moment.time := by
  rw [Timestamp.parseRaw, ofRaw?_date]

/-- A date has no bracket in it. -/
theorem close_not_mem_date : '>' ∉ spelling.date.toList := by
  intro hmem
  have htrimmed := Text.mem_trimmed (by decide) hmem
  rw [spelling.trimmed_date] at htrimmed
  rcases Timestamp.Spelling.mem_text htrimmed with h | h | h | h <;> cases h

/-- The parts of a spelling make the signature that is spelled. -/
theorem make_parts :
    make spelling.name spelling.email spelling.moment.time = .ok spelling.signature :=
  make_eq_ok_iff.mpr ⟨⟨spelling.name_plain, spelling.email_plain⟩, rfl, rfl, rfl⟩

/-- The text of a spelling reads as the signature that is spelled. -/
theorem parse_text : parse spelling.text = .ok spelling.signature := by
  have hopen : '<' ∉ spelling.name.toList := fun hmem => by
    cases isDelimiter_of_isPlain spelling.name_plain hmem
  have htext : spelling.text = String.ofList (spelling.name.toList ++
      '<' :: (spelling.email.toList ++ '>' :: spelling.date.toList)) := by
    apply String.toList_inj.mp
    simp [text]
  rw [htext, parse_of_parts hopen spelling.close_not_mem_date spelling.ofRaw?_date,
    String.ofList_toList, String.ofList_toList]
  -- The reader has trimmed the name already, and to trim it again changes nothing.
  exact spelling.signature.make_self

end Spelling

/-! ## Normal forms -/

/-- The text of a signature is its normal form. Every signature that is read from a text has one,
and so has every one that is made of a name, an email and a date that is read, the parts of which it
has. Every spelling is read as the signature that it spells, which is also what its parts make; and
the normal form of that writes its name without blanks, its seconds without a plus sign or zeros in
front, and its offset with fewer than sixty minutes, and with a plus sign if there are none. -/
theorem texts_have_normal_form :
    (∀ text s, parse text = .ok s → s.HasNormalText) ∧
      (∀ name email date time s, Timestamp.parseRaw date = .ok time →
        make name email time = .ok s →
          s.HasNormalText ∧ s.name = Text.trim name ∧ s.email = email ∧ s.time = time) ∧
      ∀ spelling : Spelling,
        parse spelling.text = .ok spelling.signature ∧
        Timestamp.parseRaw spelling.date = .ok spelling.moment.time ∧
        make spelling.name spelling.email spelling.moment.time = .ok spelling.signature ∧
        spelling.signature.text = Text.trim spelling.name ++ " <" ++ spelling.email ++ ">" ++ " " ++
          String.ofList (Timestamp.signed spelling.moment.seconds ++
            ' ' :: Timestamp.zone spelling.moment.offset) := by
  refine ⟨fun text s h => (IsGiven.read h).hasNormalText, fun name email date time s hdate h => ?_,
    fun spelling => ?_⟩
  · exact ⟨(IsGiven.made hdate h).hasNormalText, (make_eq_ok_iff.mp h).2⟩
  · exact ⟨spelling.parse_text, spelling.parseRaw_date, spelling.make_parts, rfl⟩

/-- Two spellings of one signature, neither of them its normal form, which both have. -/
theorem texts_have_normal_form_before_origin :
    let s : Signature :=
      ⟨"A", "e e", ⟨-5, -99, false, by decide, by decide⟩, by decide, by decide, by decide⟩
    parse "\tA  <e e>-0005 -0099" = .ok s ∧ parse "A<e e> -5 -0139 " = .ok s ∧
      s.text = "A <e e> -5 -0139" ∧ parse "A <e e> -5 -0139" = .ok s := by
  intro s
  obtain ⟨hread, hother, htext⟩ :
      parse "\tA  <e e>-0005 -0099" = .ok s ∧ parse "A<e e> -5 -0139 " = .ok s ∧
        s.text = "A <e e> -5 -0139" := by decide +kernel
  exact ⟨hread, hother, htext, htext ▸ (texts_have_normal_form.1 _ s hread).reads_back⟩

end ObjectStore.Signature
