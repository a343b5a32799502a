import CloudInventory.Text.Blank

/-!
Points in time, to the nanosecond, in UTC. A leap second is the second `59` before it with a
fraction of one second or more. Texts are dates and times of the Internet format, which this
reader takes in a relaxed form: blanks before any part, one or two digits for a part, a space
between date and time, and years of more than four digits with a sign. What `render` writes is
the strict form.
-/

namespace CloudInventory

/-- A point in time: whole seconds since 1970-01-01T00:00:00Z, and nanoseconds since then. -/
structure Instant where
  seconds : Int
  nanos : Nat
  deriving DecidableEq, Repr

namespace Instant

/-- The start of 1970. -/
def epoch : Instant := ⟨0, 0⟩

instance : Inhabited Instant := ⟨epoch⟩

/-! ### Dates -/

/-- `year` has a day more. -/
def isLeapYear (year : Int) : Bool :=
  year % 4 = 0 && (year % 100 ≠ 0 || year % 400 = 0)

/-- The number of days in a month. -/
def daysIn (year : Int) (month : Nat) : Nat :=
  if month = 2 then (if isLeapYear year then 29 else 28)
  else if month = 4 ∨ month = 6 ∨ month = 9 ∨ month = 11 then 30
  else 31

/-- Days from 1970-01-01 to a date. Years are counted from March, so that the leap day is the
last one of its year. -/
def daysOf (year : Int) (month day : Nat) : Int :=
  let y := if month ≤ 2 then year - 1 else year
  let era := y / 400
  let yearOfEra := y % 400
  let dayOfYear := (153 * ((month + 9) % 12) + 2) / 5 + day - 1
  era * 146097 + yearOfEra * 365 + yearOfEra / 4 - yearOfEra / 100 + dayOfYear - 719468

/-- A date. -/
structure Date where
  year : Int
  month : Nat
  day : Nat

/-- The date a number of days after 1970-01-01. -/
def dateOf (days : Int) : Date :=
  let z := days + 719468
  let era := z / 146097
  let dayOfEra := (z % 146097).toNat
  let yearOfEra :=
    (dayOfEra - dayOfEra / 1460 + dayOfEra / 36524 - dayOfEra / 146096) / 365
  let dayOfYear := dayOfEra - (365 * yearOfEra + yearOfEra / 4 - yearOfEra / 100)
  let shifted := (5 * dayOfYear + 2) / 153
  let month := if shifted < 10 then shifted + 3 else shifted - 9
  { year := yearOfEra + era * 400 + (if month ≤ 2 then 1 else 0)
    month
    day := dayOfYear - (153 * shifted + 2) / 5 + 1 }

/-- The first second of the calendar, at the start of the year -262143. -/
def firstSecond : Int := daysOf (-262143) 1 1 * 86400

/-- The second after the calendar's last, at the end of the year 262142. -/
def endSecond : Int := daysOf 262143 1 1 * 86400

/-- The instant of a number of seconds and nanoseconds, if the calendar has it. A fraction of a
second or more is a leap second's. -/
def ofUnix? (seconds : Int) (nanos : Nat) : Option Instant :=
  if firstSecond ≤ seconds ∧ seconds < endSecond ∧
      (nanos < Nat.pow 10 9 ∨ (seconds % 60 = 59 ∧ nanos < 2 * Nat.pow 10 9)) then
    some ⟨seconds, nanos⟩
  else none

/-! ### Reading -/

/-- The rest of a text behind a mark. -/
def after? (mark : Char) : List Char → Option (List Char)
  | c :: cs => if c = mark then some cs else none
  | [] => none

/-- At most `width` digits in front of a text, after blanks, with their value and the rest; none
without a digit. -/
def number? (width : Nat) (cs : List Char) : Option (Nat × List Char) :=
  let digits := ((Text.trimStartOf cs).takeWhile Char.isDigit).take width
  if digits = [] then none
  else some (digits.foldl (fun n c => n * 10 + (c.toNat - '0'.toNat)) 0,
    (Text.trimStartOf cs).drop digits.length)

/-- A number from `low` to `high` of at most two digits. -/
def part? (low high : Nat) (cs : List Char) : Option (Nat × List Char) :=
  (number? 2 cs).bind fun p => if low ≤ p.1 ∧ p.1 ≤ high then some p else none

/-- A year: at most four digits, or any number of them behind a sign. -/
def year? (cs : List Char) : Option (Int × List Char) :=
  match Text.trimStartOf cs with
  | '-' :: c :: rest =>
    if c.isDigit then (number? rest.length.succ (c :: rest)).map fun p => (-(p.1 : Int), p.2)
    else none
  | '+' :: c :: rest =>
    if c.isDigit then (number? rest.length.succ (c :: rest)).map fun p => ((p.1 : Int), p.2)
    else none
  | cs => (number? 4 cs).map fun p => ((p.1 : Int), p.2)

/-- A mark with blanks in front of it. -/
def mark? (mark : Char) (cs : List Char) : Option (List Char) :=
  after? mark (Text.trimStartOf cs)

/-- The nanoseconds of a fraction, if there is one: nine digits count, the others are passed
over. -/
def fraction? : List Char → Option (Nat × List Char)
  | '.' :: cs =>
    let digits := cs.takeWhile Char.isDigit
    if digits = [] then none
    else
      let nine := (digits ++ List.replicate 9 '0').take 9
      some (nine.foldl (fun n c => n * 10 + (c.toNat - '0'.toNat)) 0, cs.dropWhile Char.isDigit)
  | cs => some (0, cs)

/-- Two digits with no blank before them. -/
def twoDigits? : List Char → Option (Nat × List Char)
  | a :: b :: rest =>
    if a.isDigit ∧ b.isDigit then
      some ((a.toNat - '0'.toNat) * 10 + (b.toNat - '0'.toNat), rest)
    else none
  | _ => none

/-- The sign of an offset: plus, hyphen or the minus sign. -/
def sign? : List Char → Option (Bool × List Char)
  | '+' :: rest => some (false, rest)
  | '-' :: rest => some (true, rest)
  | '\u2212' :: rest => some (true, rest)
  | _ => none

/-- Blanks and colons may stand between the hours and the minutes of an offset. -/
def isOffsetGap (c : Char) : Bool := c = ':' || Text.isBlank c

/-- An offset from UTC in seconds: `UTC`, `Z`, or a sign with hours and minutes. -/
def offset? (cs : List Char) : Option (Int × List Char) :=
  match cs with
  | 'Z' :: rest | 'z' :: rest => some (0, rest)
  | _ =>
    if (cs.take 3).map Char.toLower = ['u', 't', 'c'] then some (0, cs.drop 3)
    else do
      let (negative, cs) ← sign? cs
      let (hours, cs) ← twoDigits? cs
      let (minutes, cs) ← twoDigits? (cs.dropWhile isOffsetGap)
      if 59 < minutes ∨ 23 < hours then none
      else
        let seconds : Int := hours * 3600 + minutes * 60
        some (if negative then -seconds else seconds, cs)

/-- The instant that a text says. -/
def read? (text : String) : Option Instant := do
  let (year, cs) ← year? text.toList
  let cs ← mark? '-' cs
  let (month, cs) ← part? 1 12 cs
  let cs ← mark? '-' cs
  let (day, cs) ← part? 1 31 cs
  let cs ← (after? 'T' cs).or ((after? 't' cs).or (after? ' ' cs))
  let (hour, cs) ← part? 0 23 cs
  let cs ← mark? ':' cs
  let (minute, cs) ← part? 0 59 cs
  let cs ← mark? ':' cs
  let (second, cs) ← part? 0 60 cs
  let (nanos, cs) ← fraction? cs
  let (offset, cs) ← offset? (Text.trimStartOf cs)
  if Text.trimStartOf cs ≠ [] ∨ daysIn year month < day then none
  else
    let start := daysOf year month day * 86400 + hour * 3600 + minute * 60
    if start < firstSecond ∨ endSecond ≤ start then none
    else if second = 60 then ofUnix? (start + 59 - offset) (nanos + Nat.pow 10 9)
    else ofUnix? (start + second - offset) nanos

/-! ### Writing -/

/-- A number with zeros in front, at least `width` digits. -/
def padded (width n : Nat) : String :=
  String.ofList (List.replicate (width - (toString n).length) '0') ++ toString n

/-- A year: four digits from 0 to 9999, otherwise a sign and at least four. -/
def yearText (year : Int) : String :=
  if 0 ≤ year ∧ year ≤ 9999 then padded 4 year.natAbs
  else (if year < 0 then "-" else "+") ++ padded 4 year.natAbs

/-- A fraction of 0, 3, 6 or 9 digits, as many as it takes. -/
def fractionText (nanos : Nat) : String :=
  if nanos = 0 then ""
  else if nanos % 1000000 = 0 then "." ++ padded 3 (nanos / 1000000)
  else if nanos % 1000 = 0 then "." ++ padded 6 (nanos / 1000)
  else "." ++ padded 9 nanos

/-- Date and time of an instant, with `zone` behind them. -/
def render (zone : String) (t : Instant) : String :=
  let date := dateOf (t.seconds / 86400)
  let ofDay := (t.seconds % 86400).toNat
  yearText date.year ++ "-" ++ padded 2 date.month ++ "-" ++ padded 2 date.day ++ "T" ++
    padded 2 (ofDay / 3600) ++ ":" ++ padded 2 (ofDay / 60 % 60) ++ ":" ++
    padded 2 (ofDay % 60 + t.nanos / Nat.pow 10 9) ++ fractionText (t.nanos % Nat.pow 10 9) ++ zone

/-- The text of an instant in a record. -/
def stamp (t : Instant) : String := t.render "+00:00"

/-- The text of an instant in an item. -/
def zulu (t : Instant) : String := t.render "Z"

end Instant

end CloudInventory
