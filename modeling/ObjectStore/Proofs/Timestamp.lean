import Mathlib.Data.List.Basic
import ObjectStore.Proofs.Separators
import ObjectStore.Timestamp

/-!
# Timestamps read back

The raw form of a timestamp, `<seconds> <sign><hhmm>`, reads back as the timestamp
(`ofRaw?_of_trimmed`), but it is not the only text that does. The seconds may have a plus sign or
zeros in front of them, no offset at all may have either sign, and the minutes may make up more than
an hour. The texts that are read are the spellings of a timestamp (`Timestamp.Spelling`), of which
the raw form is one, and what is proved here is proved of all of them. Blanks around a spelling do
not matter, so it may stand in a longer text.

What is read never lies in a second 60 (`leap_of_parseRaw`), so for the timestamps that are read the
raw form says everything.
-/

namespace ObjectStore

/-! ## Numerals that are read -/

namespace Numeral

/-- Nothing but a row of digits stands for a number. -/
theorem isDigit_of_value? {base n : Nat} {digits : List Char} (h : value? base digits = some n) :
    digits ≠ [] ∧ ∀ c ∈ digits, isDigit base c = true := by
  unfold value? at h
  split_ifs at h with hother
  rw [Bool.or_eq_true, not_or, Bool.not_eq_true, Bool.not_eq_true, Bool.not_eq_false',
    List.isEmpty_eq_false_iff, List.all_eq_true] at hother
  exact hother

/-- Nothing but digits and a sign stands for a whole number. -/
theorem mem_of_integer? {l : List Char} {n : Int} (h : integer? l = some n) :
    l ≠ [] ∧ ∀ c ∈ l, c = '-' ∨ c = '+' ∨ isDigit 10 c = true := by
  unfold integer? at h
  split at h
  · obtain ⟨m, hm, -⟩ := Option.map_eq_some_iff.mp h
    obtain ⟨n, hn, -⟩ := Option.bind_eq_some_iff.mp hm
    refine ⟨List.cons_ne_nil _ _, List.forall_mem_cons.mpr ⟨Or.inl rfl, fun c hc => ?_⟩⟩
    exact Or.inr (Or.inr ((isDigit_of_value? hn).2 c hc))
  · obtain ⟨m, hm, -⟩ := Option.map_eq_some_iff.mp h
    refine ⟨List.cons_ne_nil _ _, List.forall_mem_cons.mpr ⟨Or.inr (Or.inl rfl), fun c hc => ?_⟩⟩
    exact Or.inr (Or.inr ((isDigit_of_value? hm).2 c hc))
  · obtain ⟨m, hm, -⟩ := Option.map_eq_some_iff.mp h
    obtain ⟨hne, hdigits⟩ := isDigit_of_value? hm
    exact ⟨hne, fun c hc => Or.inr (Or.inr (hdigits c hc))⟩

end Numeral

namespace Timestamp

/-- A signed number reads back. -/
theorem integer?_signed (n : Int) : Numeral.integer? (signed n) = some n := by
  unfold signed
  split
  · rename_i hneg
    rw [Numeral.integer?, Numeral.value?_toDigits (by decide) (by decide)]
    change some (-(n.natAbs : Int)) = some n
    rw [Option.some.injEq]
    omega
  · rw [Numeral.integer?_toDigits, Option.some.injEq]
    omega

/-- No digit is blank. -/
theorem isBlank_of_isDigit {c : Char} (h : Numeral.isDigit 10 c = true) :
    Text.isBlank c = false := by
  rw [Numeral.isDigit, Bool.and_eq_true, decide_eq_true_eq, decide_eq_true_eq] at h
  obtain ⟨hzero, hnine⟩ := h
  have hzero : 48 ≤ c.toNat := hzero
  have hnine : c.toNat < 58 := hnine
  simp only [Text.isBlank, Bool.or_eq_false_iff, Bool.and_eq_false_iff, decide_eq_false_iff_not,
    beq_eq_false_iff_ne]
  omega

/-! ## Spellings -/

/-- A spelling of a timestamp: a numeral for the seconds, and a sign and two digits each of hours
and of minutes for the offset. -/
structure Spelling where
  numeral : List Char
  seconds : Int
  negative : Bool
  hours : Nat
  minutes : Nat
  reads : Numeral.integer? numeral = some seconds
  in_range : earliest ≤ seconds ∧ seconds ≤ latest
  minutes_lt : minutes < 100
  lt_day : 60 * hours + minutes < 1440

namespace Spelling

variable {spelling : Spelling}

/-- The part of a spelling that gives the offset. -/
def zone (spelling : Spelling) : List Char :=
  (if spelling.negative then '-' else '+')
    :: (Numeral.padded 2 spelling.hours ++ Numeral.padded 2 spelling.minutes)

/-- The characters of a spelling. -/
def text (spelling : Spelling) : List Char := spelling.numeral ++ ' ' :: spelling.zone

/-- The offset that is spelled. -/
def offset (spelling : Spelling) : Int :=
  if spelling.negative then -(60 * spelling.hours + spelling.minutes)
  else 60 * spelling.hours + spelling.minutes

/-- An offset is less than a day. -/
theorem offset_lt (spelling : Spelling) : -1440 < spelling.offset ∧ spelling.offset < 1440 := by
  have hday := spelling.lt_day
  unfold offset
  split <;> omega

/-- The timestamp that is spelled. -/
def time (spelling : Spelling) : Timestamp :=
  ⟨spelling.seconds, spelling.offset, false, spelling.in_range, spelling.offset_lt⟩

/-- A zone is written in digits behind a sign. -/
theorem mem_zone {c : Char} (h : c ∈ spelling.zone) :
    c = '-' ∨ c = '+' ∨ Numeral.isDigit 10 c = true := by
  rcases List.mem_cons.mp h with rfl | h
  · split <;> simp
  · refine Or.inr (Or.inr ?_)
    rcases List.mem_append.mp h with h | h
    · exact List.all_eq_true.mp (Numeral.all_padded 2 _) c h
    · exact List.all_eq_true.mp (Numeral.all_padded 2 _) c h

/-- Nothing but digits, signs and a space stands in a spelling. -/
theorem mem_text {c : Char} (h : c ∈ spelling.text) :
    c = '-' ∨ c = '+' ∨ c = ' ' ∨ Numeral.isDigit 10 c = true := by
  rcases List.mem_append.mp h with h | h
  · rcases (Numeral.mem_of_integer? spelling.reads).2 c h with h | h | h <;> simp [h]
  · rcases List.mem_cons.mp h with rfl | h
    · simp
    · rcases mem_zone h with h | h | h <;> simp [h]

/-- No blank stands at an end of a spelling. -/
theorem trimmed_text (spelling : Spelling) : Text.trimmed spelling.text = spelling.text := by
  obtain ⟨hne, hnumeral⟩ := Numeral.mem_of_integer? spelling.reads
  apply Text.trimmed_eq_self
  · intro c hc
    rw [text, List.head?_append_of_ne_nil _ hne] at hc
    rcases hnumeral c (List.mem_of_mem_head? hc) with rfl | rfl | h
    · rfl
    · rfl
    · exact isBlank_of_isDigit h
  · intro c hc
    have hzone : spelling.zone ≠ [] := List.cons_ne_nil _ _
    rw [text, List.getLast?_append_of_ne_nil _ (List.cons_ne_nil _ _),
      List.getLast?_cons_of_ne_nil hzone] at hc
    rcases mem_zone (List.mem_of_mem_getLast? hc) with rfl | rfl | h
    · rfl
    · rfl
    · exact isBlank_of_isDigit h

/-! ## Reading a spelling -/

/-- The offset is read from its sign and its four digits. -/
theorem zone?_zone (spelling : Spelling) : zone? spelling.zone = some spelling.offset := by
  have hlength : ∀ n < 100, (Nat.toDigits 10 n).length ≤ 2 := fun n hn =>
    (Nat.length_toDigits_le_iff (by decide) (by decide)).mpr hn
  have hday := spelling.lt_day
  have hhours := hlength spelling.hours (by omega)
  have hminutes := hlength spelling.minutes spelling.minutes_lt
  obtain ⟨h1, h2, hpair⟩ := List.length_eq_two.mp (Numeral.length_padded hhours)
  obtain ⟨m1, m2, mpair⟩ := List.length_eq_two.mp (Numeral.length_padded hminutes)
  have hvalue := Numeral.value?_padded 2 spelling.hours
  have mvalue := Numeral.value?_padded 2 spelling.minutes
  rw [hpair] at hvalue
  rw [mpair] at mvalue
  rw [zone, hpair, mpair]
  simp only [zone?, List.cons_append, List.nil_append, hvalue, mvalue, bind, Option.bind]
  unfold offset
  cases spelling.negative with
  | true => rfl
  | false => rfl

/-- A spelling reads as the timestamp that is spelled, with blanks in front of it or behind. -/
theorem ofRaw?_of_trimmed {text : List Char} (htext : Text.trimmed text = spelling.text) :
    ofRaw? text = some spelling.time := by
  have hspace : ' ' ∉ spelling.numeral := fun h => by
    rcases (Numeral.mem_of_integer? spelling.reads).2 _ h with h | h | h <;> cases h
  have hcut : cutAt? ' ' spelling.text = some (spelling.numeral, spelling.zone) :=
    cutAt?_append hspace _
  have hmake : make? spelling.seconds spelling.offset false = some spelling.time := by
    rw [make?, dif_pos spelling.in_range, dif_pos spelling.offset_lt, time]
  unfold ofRaw?
  rw [htext, hcut]
  simp only [bind, Option.bind_some, spelling.reads, spelling.zone?_zone, hmake]

end Spelling

/-! ## The raw form -/

/-- The spelling in which a timestamp is written. -/
def spelled (t : Timestamp) : Spelling where
  numeral := signed t.seconds
  seconds := t.seconds
  negative := decide (t.offset < 0)
  hours := t.offset.natAbs / 60
  minutes := t.offset.natAbs % 60
  reads := integer?_signed t.seconds
  in_range := t.in_range
  minutes_lt := by omega
  lt_day := by
    have := t.offset_lt
    omega

/-- The normal spelling of a moment is the one it is written in. -/
theorem text_spelled (t : Timestamp) : t.spelled.text = t.raw := by
  simp only [Spelling.text, Spelling.zone, spelled, raw, zone, decide_eq_true_eq]

/-- It spells the timestamp itself, unless that lies in a second 60. -/
theorem time_spelled {t : Timestamp} (h : t.leap = false) : t.spelled.time = t := by
  have hoffset : t.spelled.offset = t.offset := by
    simp only [Spelling.offset, spelled, decide_eq_true_eq]
    split <;> omega
  cases t with
  | mk seconds offset leap =>
    cases h
    simp only [Spelling.time, hoffset]
    rfl

/-- Nothing but digits, signs and a space stands in a raw form. -/
theorem mem_raw {t : Timestamp} {c : Char} (h : c ∈ t.raw) :
    c = '-' ∨ c = '+' ∨ c = ' ' ∨ Numeral.isDigit 10 c = true :=
  Spelling.mem_text (text_spelled t ▸ h)

/-- No blank stands at an end of a raw form. -/
theorem trimmed_raw (t : Timestamp) : Text.trimmed t.raw = t.raw := by
  rw [← text_spelled, Spelling.trimmed_text]

/-- A raw form reads back, with blanks in front of it or behind. -/
theorem ofRaw?_of_trimmed {t : Timestamp} (h : t.leap = false) {text : List Char}
    (htext : Text.trimmed text = t.raw) : ofRaw? text = some t := by
  rw [Spelling.ofRaw?_of_trimmed (htext.trans (text_spelled t).symm), time_spelled h]

/-- What is read from a raw form does not lie in a second 60. -/
theorem leap_of_parseRaw {text : String} {t : Timestamp} (h : parseRaw text = .ok t) :
    t.leap = false := by
  unfold parseRaw at h
  split at h
  · rename_i time hread
    cases h
    unfold ofRaw? at hread
    simp only [Option.bind_eq_bind, Option.bind_eq_some_iff] at hread
    obtain ⟨-, -, seconds, -, offset, -, hmake⟩ := hread
    unfold make? at hmake
    split_ifs at hmake
    cases hmake
    rfl
  · cases h

end Timestamp

end ObjectStore
