/-!
# Numerals

Numbers are written with the fewest digits (`Nat.toDigits`) and read digit by digit. Only ASCII
digits count. `value?` reads a non-empty numeral in a base up to ten; `integer?` allows one sign
in front of a decimal numeral.

A written number reads back: `value?_toDigits`, `value?_padded` and `integer?_toDigits`. The other
way round, digits are what the number they stand for is written with, unless there are zeros in
front of it (`toDigits_ofDigitChars_eq_iff`).
-/

namespace ObjectStore.Numeral

/-- A digit of the given base, for bases up to ten. -/
def isDigit (base : Nat) (c : Char) : Bool := '0' ≤ c && c.toNat < '0'.toNat + base

/-- The number a non-empty row of digits stands for. -/
def value? (base : Nat) (digits : List Char) : Option Nat :=
  if digits.isEmpty || !digits.all (isDigit base) then none
  else some (Nat.ofDigitChars base digits 0)

/-- The number an optional sign and a decimal numeral stand for. -/
def integer? : List Char → Option Int
  | '-' :: digits => (value? 10 digits).map fun n => -(n : Int)
  | '+' :: digits => (value? 10 digits).map Int.ofNat
  | digits => (value? 10 digits).map Int.ofNat

/-- A number in decimal, with zeros in front up to the given width. -/
def padded (width n : Nat) : List Char :=
  let digits := Nat.toDigits 10 n
  List.replicate (width - digits.length) '0' ++ digits

/-- A number in decimal, as text. -/
def decimal (n : Nat) : String := String.ofList (Nat.toDigits 10 n)

/-- The character of a digit is a digit. -/
theorem isDigit_digitChar {base n : Nat} (h : n < base) (hb : base ≤ 10) :
    isDigit base (Nat.digitChar n) = true := by
  have all : ∀ b : Fin 11, ∀ m : Fin 10, m.val < b.val →
      isDigit b.val (Nat.digitChar m.val) = true := by decide
  exact all ⟨base, by omega⟩ ⟨n, by omega⟩ h

/-- A number is written in digits alone. -/
theorem isDigit_of_mem_toDigits {base : Nat} (h1 : 1 < base) (hb : base ≤ 10) :
    ∀ (n : Nat) {c : Char}, c ∈ Nat.toDigits base n → isDigit base c = true := by
  intro n
  induction n using Nat.strongRecOn with
  | _ n ih =>
    intro c hc
    rcases Nat.lt_or_ge n base with h | h
    · rw [Nat.toDigits_of_lt_base h, List.mem_singleton] at hc
      subst hc
      exact isDigit_digitChar h hb
    · rw [Nat.toDigits_of_base_le h1 h] at hc
      rcases List.mem_append.mp hc with hc | hc
      · exact ih (n / base) (Nat.div_lt_self (by omega) h1) hc
      · rw [List.mem_singleton] at hc
        subst hc
        exact isDigit_digitChar (Nat.mod_lt n (by omega)) hb

/-- A number written in a base from two to ten reads back as that number. -/
theorem value?_toDigits {base : Nat} (h1 : 1 < base) (hb : base ≤ 10) (n : Nat) :
    value? base (Nat.toDigits base n) = some n := by
  have hall : (Nat.toDigits base n).all (isDigit base) = true :=
    List.all_eq_true.mpr fun c hc => isDigit_of_mem_toDigits h1 hb n hc
  have hne : (Nat.toDigits base n).isEmpty = false := by
    simp
  simp [value?, hall, hne, Nat.ofDigitChars_toDigits h1 hb]

/-- Different numbers are written differently. -/
theorem decimal_injective {m n : Nat} (h : decimal m = decimal n) : m = n := by
  have hvalue := value?_toDigits (show 1 < 10 by decide) (by decide) m
  rw [String.ofList_inj.mp h, value?_toDigits (by decide) (by decide)] at hvalue
  exact (Option.some.inj hvalue).symm

/-- A digit is the character of its value. -/
theorem digitChar_of_isDigit {base : Nat} {c : Char} (h : isDigit base c = true) (hb : base ≤ 10) :
    c.toNat - '0'.toNat < base ∧ Nat.digitChar (c.toNat - '0'.toNat) = c := by
  have hzero : '0'.toNat = 48 := rfl
  simp only [isDigit, Bool.and_eq_true, decide_eq_true_eq, Char.le_def, UInt32.le_iff_toNat_le,
    Char.toNat_val, hzero] at h
  refine ⟨by omega, ?_⟩
  apply Char.toNat_inj.mp
  rw [Nat.toNat_digitChar_of_lt_ten (by omega)]
  omega

/-- A digit takes one byte. -/
theorem utf8Size_of_isDigit {base : Nat} {c : Char} (h : isDigit base c = true) (hb : base ≤ 10) :
    c.utf8Size = 1 := by
  obtain ⟨hlt, hchar⟩ := digitChar_of_isDigit h hb
  have all : ∀ m : Fin 10, (Nat.digitChar m.val).utf8Size = 1 := by decide
  rw [← hchar]
  exact all ⟨_, Nat.lt_of_lt_of_le hlt hb⟩

/-- Digits take as many bytes as there are. -/
theorem utf8ByteSize_ofList_digits {digits : List Char} (h : ∀ c ∈ digits, isDigit 10 c = true) :
    (String.ofList digits).utf8ByteSize = digits.length := by
  induction digits with
  | nil => simp
  | cons c digits ih =>
    rw [String.ofList_cons, String.utf8ByteSize_append, String.utf8ByteSize_singleton,
      utf8Size_of_isDigit (h c List.mem_cons_self) (by decide),
      ih fun d hd => h d (List.mem_cons_of_mem _ hd), List.length_cons, Nat.add_comm]

/-- A number takes as many bytes in decimal as it has digits. -/
theorem utf8ByteSize_decimal (n : Nat) :
    (decimal n).utf8ByteSize = (Nat.toDigits 10 n).length :=
  utf8ByteSize_ofList_digits fun _ hc => isDigit_of_mem_toDigits (by decide) (by decide) n hc

/-- Digits that follow a number which is not zero are digits of the number they make with it. -/
theorem toDigits_append_digits {base : Nat} (h1 : 1 < base) (hb : base ≤ 10) {digits : List Char}
    (hdigits : ∀ c ∈ digits, isDigit base c = true) {n : Nat} (hn : 0 < n) :
    Nat.toDigits base n ++ digits = Nat.toDigits base (Nat.ofDigitChars base digits n) := by
  induction digits generalizing n with
  | nil => simp
  | cons c digits ih =>
    obtain ⟨hlt, hchar⟩ := digitChar_of_isDigit (hdigits c List.mem_cons_self) hb
    have hstep := Nat.toDigits_append_toDigits h1 hn hlt
    rw [Nat.toDigits_of_lt_base hlt, hchar] at hstep
    have hpos : 0 < base * n + (c.toNat - '0'.toNat) :=
      Nat.add_pos_left (Nat.mul_pos (by omega) hn) _
    rw [Nat.ofDigitChars_cons, ← ih (fun d hd => hdigits d (List.mem_cons_of_mem _ hd)) hpos,
      ← hstep, List.append_assoc, List.singleton_append]

/-- A written number starts with a zero only if it is one. -/
theorem eq_zero_of_head?_toDigits {base : Nat} (h1 : 1 < base) (hb : base ≤ 10) {n : Nat}
    (h : (Nat.toDigits base n).head? = some '0') : n = 0 := by
  induction n using Nat.strongRecOn with
  | _ n ih =>
    rcases Nat.lt_or_ge n base with hn | hn
    · rw [Nat.toDigits_of_lt_base hn, List.head?_cons, Option.some.injEq] at h
      exact Nat.digitChar_eq_zero.mp h
    · obtain ⟨c, front, hfront⟩ := List.exists_cons_of_ne_nil (@Nat.toDigits_ne_nil (n / base) base)
      rw [Nat.toDigits_of_base_le h1 hn, hfront, List.cons_append, List.head?_cons] at h
      rw [← List.head?_cons (l := front), ← hfront] at h
      have hquotient := ih (n / base) (Nat.div_lt_self (by omega) h1) h
      have := Nat.div_pos hn (by omega)
      omega

/-- Digits are those of the number they stand for, unless there are zeros in front. -/
theorem toDigits_ofDigitChars_eq_iff {base : Nat} (h1 : 1 < base) (hb : base ≤ 10)
    {digits : List Char} (hdigits : ∀ c ∈ digits, isDigit base c = true) (hne : digits ≠ []) :
    Nat.toDigits base (Nat.ofDigitChars base digits 0) = digits ↔
      (digits.head? = some '0' → digits = ['0']) := by
  constructor
  · intro h hhead
    rw [← h] at hhead
    rw [← h, eq_zero_of_head?_toDigits h1 hb hhead, Nat.toDigits_zero]
  · intro h
    obtain ⟨c, rest, rfl⟩ := List.exists_cons_of_ne_nil hne
    by_cases hc : c = '0'
    · subst hc
      rw [h rfl]
      exact Nat.toDigits_zero base
    · obtain ⟨hlt, hchar⟩ := digitChar_of_isDigit (hdigits c List.mem_cons_self) hb
      have hpos : 0 < c.toNat - '0'.toNat := by
        refine Nat.pos_of_ne_zero fun hzero => hc ?_
        rw [← hchar, hzero]
        rfl
      have hrest := toDigits_append_digits h1 hb
        (fun d hd => hdigits d (List.mem_cons_of_mem _ hd)) hpos
      rw [Nat.toDigits_of_lt_base hlt, hchar] at hrest
      rw [Nat.ofDigitChars_cons, Nat.mul_zero, Nat.zero_add, ← hrest, List.singleton_append]

/-- A padded number is written in digits alone. -/
theorem all_padded (width n : Nat) : (padded width n).all (isDigit 10) = true := by
  rw [List.all_eq_true]
  intro c hc
  rcases List.mem_append.mp hc with hc | hc
  · rw [List.eq_of_mem_replicate hc]
    rfl
  · exact isDigit_of_mem_toDigits (by decide) (by decide) n hc

/-- A padded number reads back as that number. -/
theorem value?_padded (width n : Nat) : value? 10 (padded width n) = some n := by
  have hne : (padded width n).isEmpty = false := by simp [padded]
  have hvalue : Nat.ofDigitChars 10 (padded width n) 0 = n := by
    rw [padded, Nat.ofDigitChars_append, Nat.ofDigitChars_replicate_zero, Nat.mul_zero,
      Nat.ofDigitChars_ten_toDigits]
  simp [value?, hne, all_padded, hvalue]

/-- A number that fits is padded to the width exactly. -/
theorem length_padded {width n : Nat} (h : (Nat.toDigits 10 n).length ≤ width) :
    (padded width n).length = width := by
  rw [padded, List.length_append, List.length_replicate]
  omega

/-- A number without a sign reads back as that number. -/
theorem integer?_toDigits (n : Nat) : integer? (Nat.toDigits 10 n) = some (n : Int) := by
  have hvalue := value?_toDigits (show 1 < 10 by decide) (by decide) n
  unfold integer?
  split
  · rename_i digits heq
    have hdigit := isDigit_of_mem_toDigits (by decide) (by decide) n (heq ▸ List.mem_cons_self)
    exact absurd hdigit (by decide)
  · rename_i digits heq
    have hdigit := isDigit_of_mem_toDigits (by decide) (by decide) n (heq ▸ List.mem_cons_self)
    exact absurd hdigit (by decide)
  · rw [hvalue]
    rfl

end ObjectStore.Numeral
