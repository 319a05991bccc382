import ObjectStore.Timestamp

/-!
# Written dates

Besides the raw form, a date may be given as in mail headers (`Wed, 15 Nov 2023 00:13:20 +0200`) or
as a date and a time of day (`2023-11-15 00:13:20 +0200`). Each of the two forms is a row of steps
that take something from the front of the text and hand the rest on; both end in a
`Timestamp.Fields`, from which the timestamp is made if its fields fit together.
-/

namespace ObjectStore.Timestamp

/-- What a written date says. -/
structure Fields where
  /-- The day of the week, counted from Sunday, if given. -/
  weekday : Option Nat := none
  year : Int
  month : Nat
  day : Nat
  hour : Nat
  minute : Nat
  second : Nat
  /-- Minutes by which local time is ahead of UTC. -/
  offset : Int

/-- The timestamp that written fields stand for. The date must exist and be in range, the day of
the week must be right, and a second 60 may end any minute. -/
def Fields.timestamp? (f : Fields) : Option Timestamp :=
  let date : Calendar.Date := ⟨f.year, f.month, f.day⟩
  if date.exists && -262143 ≤ f.year && f.year ≤ 262142 && f.hour < 24 && f.minute < 60
      && f.second ≤ 60 && f.weekday.all (· == Calendar.weekday date.toDays) then
    let leap := f.second == 60
    let second : Int := if leap then 59 else f.second
    let clock := date.toDays * 86400 + f.hour * 3600 + f.minute * 60 + second
    make? (clock - 60 * f.offset) f.offset leap
  else none

/-! ## Steps -/

/-- Take a number of at least `least` and at most `most` digits, or of any length above. -/
def takeNumber? (least : Nat) (most : Option Nat) (l : List Char) : Option (Nat × List Char) :=
  let digits := (most.elim l l.take).takeWhile (Numeral.isDigit 10)
  if digits.length < least then none
  else (Numeral.value? 10 digits).map fun n => (n, l.drop digits.length)

/-- Take one given character. -/
def takeChar? (c : Char) : List Char → Option (List Char)
  | d :: rest => if d = c then some rest else none
  | [] => none

/-- Take at least one blank, and all that follow it. -/
def takeBlanks? (l : List Char) : Option (List Char) :=
  match l with
  | c :: rest => if Text.isBlank c then some (Text.trimFront rest) else none
  | [] => none

/-- An ASCII letter in lower case, any other character unchanged. -/
def foldCase (c : Char) : Char := c.toLower

/-- Take one of the given three-letter names, in any case: its position. -/
def takeName? (names : List String) (l : List Char) : Option (Nat × List Char) :=
  (names.findIdx? fun name => name.toList.map foldCase == (l.take 3).map foldCase).map
    fun i => (i, l.drop 3)

/-- Take the digits of an offset after its sign: two for the hours, a separator, and two for the
minutes, which stay below sixty. -/
def takeZoneDigits? (separator : List Char → List Char) (l : List Char) :
    Option (Nat × List Char) := do
  let (hours, rest) ← takeNumber? 2 (some 2) l
  let (minutes, rest) ← takeNumber? 2 (some 2) (separator rest)
  if minutes < 60 then some (60 * hours + minutes, rest) else none

/-- Take an offset with a sign in front. The minus sign U+2212 counts only where it is allowed. -/
def takeZone? (minusSign : Bool) (separator : List Char → List Char) (l : List Char) :
    Option (Int × List Char) := do
  match l with
  | '+' :: rest =>
    let (offset, rest) ← takeZoneDigits? separator rest
    return (offset, rest)
  | c :: rest =>
    if c = '-' || (minusSign && c = '\u2212') then
      let (offset, rest) ← takeZoneDigits? separator rest
      return (-offset, rest)
    else none
  | [] => none

/-! ## Mail dates -/

/-- The offsets, in hours, of the named zones of mail headers. -/
def namedZones : List (String × Int) :=
  [("gmt", 0), ("ut", 0), ("z", 0), ("edt", -4), ("est", -5), ("cdt", -5), ("cst", -6), ("mdt", -6),
    ("mst", -7), ("pdt", -7), ("pst", -8)]

/-- The offset of a zone name in lower case. Every single letter but `j` is a zone without an
offset. -/
def namedZone? (name : String) : Option Int :=
  match namedZones.lookup name with
  | some hours => some (60 * hours)
  | none => if name.length = 1 && name != "j" then some 0 else none

/-- Take the zone of a mail date: a name, or a sign and four digits. -/
def takeMailZone? (l : List Char) : Option (Int × List Char) :=
  let name := l.takeWhile Char.isAlpha
  if name.isEmpty then takeZone? false id l
  else (namedZone? (String.ofList (name.map foldCase))).map fun offset =>
    (offset, l.drop name.length)

/-- The rest of a comment that is open `depth + 1` times. -/
def closeComment? : Nat → List Char → Option (List Char)
  | _, [] => none
  | depth, '\\' :: _ :: rest => closeComment? depth rest
  | depth, '(' :: rest => closeComment? (depth + 1) rest
  | 0, ')' :: rest => some rest
  | depth + 1, ')' :: rest => closeComment? depth rest
  | depth, _ :: rest => closeComment? depth rest

/-- Drop the comments in front, at most as many as the fuel allows. -/
def dropComments : Nat → List Char → List Char
  | 0, l => l
  | fuel + 1, l =>
    match Text.trimFront l with
    | '(' :: rest =>
      match closeComment? 0 rest with
      | some rest => dropComments fuel rest
      | none => l
    | _ => l

/-- The year a mail date means: two digits stand for a year from 1950 to 2049, three digits count
from 1900. -/
def mailYear (digits year : Nat) : Nat :=
  if digits = 2 then if year < 50 then year + 2000 else year + 1900
  else if digits = 3 then year + 1900
  else year

/-- Read a mail date. -/
def ofMail? (text : List Char) : Option Timestamp := do
  let l := Text.trimFront text
  let (weekday, l) ← match takeName? Calendar.weekdayNames l with
    | some (weekday, rest) => (takeChar? ',' rest).map fun rest => (some weekday, rest)
    | none => some (none, l)
  let (day, l) ← takeNumber? 1 (some 2) (Text.trimFront l)
  let l ← takeBlanks? l
  let (month, l) ← takeName? Calendar.monthNames l
  let l ← takeBlanks? l
  let (year, rest) ← takeNumber? 2 none l
  let year := mailYear (l.length - rest.length) year
  let l ← takeBlanks? rest
  let (hour, l) ← takeNumber? 2 (some 2) l
  let l ← takeChar? ':' (Text.trimFront l)
  let (minute, l) ← takeNumber? 2 (some 2) (Text.trimFront l)
  let (second, l) ← match takeChar? ':' (Text.trimFront l) with
    | some rest => takeNumber? 2 (some 2) rest
    | none => some (0, l)
  let l ← takeBlanks? l
  let (offset, l) ← takeMailZone? l
  if (dropComments l.length l).isEmpty then
    Fields.timestamp? ⟨weekday, year, month + 1, day, hour, minute, second, offset⟩
  else none

/-! ## Dates with a time of day -/

/-- Take a year: a sign and any number of digits, or up to four digits without a sign. -/
def takeYear? (l : List Char) : Option (Int × List Char) :=
  match l with
  | '-' :: rest => (takeNumber? 1 none rest).map fun (n, rest) => (-(n : Int), rest)
  | '+' :: rest => (takeNumber? 1 none rest).map fun (n, rest) => ((n : Int), rest)
  | l => (takeNumber? 1 (some 4) l).map fun (n, rest) => ((n : Int), rest)

/-- Take a number of one or two digits with blanks in front. -/
def takeShort? (l : List Char) : Option (Nat × List Char) :=
  takeNumber? 1 (some 2) (Text.trimFront l)

/-- Colons and blanks, which may divide the hours of an offset from its minutes. -/
def dropZoneSeparators (l : List Char) : List Char :=
  l.dropWhile fun c => c == ':' || Text.isBlank c

/-- Read a date with a time of day. -/
def ofDateAndTime? (text : List Char) : Option Timestamp := do
  let (year, l) ← takeYear? (Text.trimFront text)
  let (month, l) ← takeShort? (← takeChar? '-' l)
  let (day, l) ← takeShort? (← takeChar? '-' l)
  let (hour, l) ← takeShort? l
  let (minute, l) ← takeShort? (← takeChar? ':' l)
  let (second, l) ← takeShort? (← takeChar? ':' l)
  let (offset, l) ← takeZone? true dropZoneSeparators (Text.trimFront l)
  if l.isEmpty then Fields.timestamp? ⟨none, year, month, day, hour, minute, second, offset⟩
  else none

/-- Read a date in any of the three forms. -/
def ofWritten? (text : String) : Option Timestamp :=
  (ofRaw? text.toList).or ((ofMail? text.toList).or (ofDateAndTime? text.toList))

end ObjectStore.Timestamp
