import ObjectStore.Calendar
import ObjectStore.Error
import ObjectStore.Text.Blank

/-!
# Timestamps

A timestamp is an instant, in seconds since 1970-01-01 UTC, together with the offset from UTC at
which it is to be read. Instants lie in a range of years around the calendar's origin and offsets
are whole minutes of less than a day; both bounds are part of the type.

The raw form `<seconds> <sign><hhmm>` is what signatures carry. `Timestamp.raw` writes it,
`Timestamp.parseRaw` reads it.
-/

namespace ObjectStore

/-- The first instant: the start of the year -262143. -/
def Timestamp.earliest : Int := -8334601228800

/-- The last instant: the last second of the year 262142. -/
def Timestamp.latest : Int := 8210266876799

/-- An instant and the offset at which to read it. -/
structure Timestamp where
  /-- Seconds since 1970-01-01 00:00:00 UTC. -/
  seconds : Int
  /-- Minutes by which local time is ahead of UTC. -/
  offset : Int
  /-- Whether the instant lies in a second 60, right after `seconds`. -/
  leap : Bool
  in_range : Timestamp.earliest ≤ seconds ∧ seconds ≤ Timestamp.latest
  offset_lt : -1440 < offset ∧ offset < 1440
  deriving DecidableEq

namespace Timestamp

/-- The timestamp with the given parts, if they are in range. -/
def make? (seconds offset : Int) (leap : Bool) : Option Timestamp :=
  if h : earliest ≤ seconds ∧ seconds ≤ latest then
    if h' : -1440 < offset ∧ offset < 1440 then some ⟨seconds, offset, leap, h, h'⟩ else none
  else none

/-! ## The raw form -/

/-- An offset as a sign, two digits of hours and two of minutes. -/
def zone (offset : Int) : List Char :=
  (if offset < 0 then '-' else '+')
    :: (Numeral.padded 2 (offset.natAbs / 60) ++ Numeral.padded 2 (offset.natAbs % 60))

/-- A whole number in decimal, with a minus sign if it is negative. -/
def signed (n : Int) : List Char :=
  if n < 0 then '-' :: Nat.toDigits 10 n.natAbs else Nat.toDigits 10 n.natAbs

/-- The raw form of a timestamp. -/
def raw (t : Timestamp) : List Char := signed t.seconds ++ ' ' :: zone t.offset

/-- Read an offset: a sign and four digits, of which the last two need not stay below sixty. -/
def zone? : List Char → Option Int
  | [sign, h1, h2, m1, m2] => do
    let hours ← Numeral.value? 10 [h1, h2]
    let minutes ← Numeral.value? 10 [m1, m2]
    let offset : Int := 60 * hours + minutes
    if sign = '+' then some offset else if sign = '-' then some (-offset) else none
  | _ => none

/-- Read a timestamp from its raw form. -/
def ofRaw? (text : List Char) : Option Timestamp := do
  let (seconds, offset) ← cutAt? ' ' (Text.trimmed text)
  let seconds ← Numeral.integer? seconds
  let offset ← zone? offset
  make? seconds offset false

/-- Read a timestamp from its raw form; the fault carries the text as given. -/
def parseRaw (text : String) : Except SignatureFault Timestamp :=
  match ofRaw? text.toList with
  | some t => .ok t
  | none => .error (.badDate text)

/-! ## The readable form -/

/-- A year: four digits at least, with a sign unless it is one of the years 0 to 9999. -/
def yearText (year : Int) : List Char :=
  if 0 ≤ year ∧ year ≤ 9999 then Numeral.padded 4 year.natAbs
  else (if year < 0 then '-' else '+') :: Numeral.padded 4 year.natAbs

/-- A timestamp the way people read it, such as `Mon Jan 1 12:34:56 2024 +0000`. -/
def readable (t : Timestamp) : String :=
  let clock := t.seconds + 60 * t.offset
  let days := Int.fdiv clock 86400
  let date := Calendar.Date.ofDays days
  let second := (Int.fmod clock 86400).toNat
  let shown := second % 60 + if t.leap then 1 else 0
  Calendar.weekdayNames.getD (Calendar.weekday days) "" ++ " "
    ++ Calendar.monthNames.getD (date.month - 1) "" ++ " " ++ Numeral.decimal date.day ++ " "
    ++ String.ofList (Numeral.padded 2 (second / 3600) ++ ':' :: Numeral.padded 2 (second / 60 % 60)
      ++ ':' :: Numeral.padded 2 shown ++ ' ' :: yearText date.year ++ ' ' :: zone t.offset)

end Timestamp

end ObjectStore
