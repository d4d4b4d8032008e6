/-
  Points in time on the calendar.

  `Timestamp.read?` accepts a date, a `T` or a blank, a time of day with an
  optional fraction, and an offset; blanks may stand between the parts.
  `render` writes the point in universal time, with no, three, six or nine
  digits of fraction, as few as are needed.  A sixtieth second is kept as a
  fraction beyond one second of the one before it.
-/
import Cuelist.Text.Blank
import Cuelist.Text.Case
import Cuelist.Decimal.Numeral

namespace Cuelist

/-- A day of the calendar. -/
structure Date where
  year : Int
  month : Nat
  day : Nat
deriving Repr, DecidableEq

namespace Date

/-- Whether a year has 366 days. -/
def isLeapYear (year : Int) : Bool :=
  year % 4 == 0 && (year % 100 != 0 || year % 400 == 0)

/-- How many days a month has. -/
def daysInMonth (year : Int) (month : Nat) : Nat :=
  if month = 2 then if isLeapYear year then 29 else 28
  else if month ∈ [4, 6, 9, 11] then 30
  else 31

/-- Whether the calendar has this day; it ends some 262 thousand years from
    year 0, in both directions. -/
def isValid (d : Date) : Bool :=
  -262143 ≤ d.year && d.year ≤ 262142 && 1 ≤ d.month && d.month ≤ 12 && 1 ≤ d.day &&
    d.day ≤ daysInMonth d.year d.month

/-- The number of a day, counted from the first of March of year 0.  The count
    takes years from March on, so that a leap day is the last of its year. -/
def toDays (d : Date) : Int :=
  let year := if d.month ≤ 2 then d.year - 1 else d.year
  let month := (d.month + 9) % 12
  365 * year + year / 4 - year / 100 + year / 400 + ((153 * month + 2) / 5 + d.day - 1 : Nat)

/-- The day with a number; 146097 days are 400 years. -/
def ofDays (n : Int) : Date :=
  let era := n / 146097
  let inEra := (n % 146097).toNat
  let yearInEra := (inEra - inEra / 1460 + inEra / 36524 - inEra / 146096) / 365
  let inYear := inEra - (365 * yearInEra + yearInEra / 4 - yearInEra / 100)
  let month := (5 * inYear + 2) / 153
  { year := era * 400 + yearInEra + (if 10 ≤ month then 1 else 0)
    month := if month < 10 then month + 3 else month - 9
    day := inYear - (153 * month + 2) / 5 + 1 }

end Date

/-- A point in universal time: a day, a second of the day and nanoseconds, which
    reach two seconds in a minute of 61. -/
structure Timestamp where
  date : Date
  second : Nat
  nanos : Nat
deriving Repr, DecidableEq

namespace Timestamp

/-! ## Writing -/

/-- A number with at least `width` digits. -/
def padded (width n : Nat) : List Char :=
  let digits := Nat.toDigits 10 n
  List.replicate (width - digits.length) '0' ++ digits

/-- A year: four digits, with a sign outside 0 to 9999. -/
def renderYear (year : Int) : List Char :=
  if 0 ≤ year ∧ year ≤ 9999 then padded 4 year.toNat
  else (if year < 0 then '-' else '+') :: padded 4 year.natAbs

/-- A fraction of a second, in thousandths, millionths or billionths. -/
def renderFraction (nanos : Nat) : List Char :=
  if nanos = 0 then []
  else if nanos % 1000000 = 0 then '.' :: padded 3 (nanos / 1000000)
  else if nanos % 1000 = 0 then '.' :: padded 6 (nanos / 1000)
  else '.' :: padded 9 nanos

/-- The text of a point in time. -/
def render (t : Timestamp) : String :=
  let second := t.second % 60 + t.nanos / 1000000000
  String.ofList (renderYear t.date.year ++ '-' :: padded 2 t.date.month ++
    '-' :: padded 2 t.date.day ++ 'T' :: padded 2 (t.second / 3600) ++
    ':' :: padded 2 (t.second / 60 % 60) ++ ':' :: padded 2 second ++
    renderFraction (t.nanos % 1000000000) ++ ['Z'])

/-! ## Reading

Each reader takes its part off the front of a text and returns the rest. -/

/-- At most `width` digits, and at least one. -/
def takeDigits? (width : Nat) (s : List Char) : Option (List Char × List Char) :=
  let digits := (s.take width).takeWhile Decimal.isDigit
  if digits.isEmpty then none else some (digits, s.drop digits.length)

/-- A number of at most two digits behind blanks. -/
def takeField? (s : List Char) : Option (Nat × List Char) :=
  (takeDigits? 2 (Text.trimStart s)).map fun p => (Decimal.value p.1, p.2)

/-- A year behind blanks: four digits at most, or any number behind a sign. -/
def takeYear? (s : List Char) : Option (Int × List Char) :=
  match Text.trimStart s with
  | '-' :: rest => (takeDigits? rest.length rest).map fun p => (-(Decimal.value p.1 : Int), p.2)
  | '+' :: rest => (takeDigits? rest.length rest).map fun p => ((Decimal.value p.1 : Int), p.2)
  | rest => (takeDigits? 4 rest).map fun p => ((Decimal.value p.1 : Int), p.2)

/-- A mark behind blanks. -/
def takeMark? (mark : Char) (s : List Char) : Option (List Char) :=
  match Text.trimStart s with
  | c :: rest => if c = mark then some rest else none
  | [] => none

/-- An optional fraction of a second, in nanoseconds; digits from the tenth on
    do not count. -/
def takeFraction? : List Char → Option (Nat × List Char)
  | '.' :: rest =>
    (takeDigits? 9 rest).map fun p =>
      (Decimal.value p.1 * Nat.pow 10 (9 - p.1.length), p.2.dropWhile Decimal.isDigit)
  | s => some (0, s)

/-- The two digits of the minutes of an offset. -/
def takeOffsetMinutes? : List Char → Option (Nat × List Char)
  | a :: b :: rest =>
    if '0' ≤ a ∧ a ≤ '5' ∧ Decimal.isDigit b then some (Decimal.value [a, b], rest) else none
  | _ => none

/-- The hours and minutes of an offset, in seconds; colons and blanks may stand
    between them. -/
def takeOffsetTime? : List Char → Option (Nat × List Char)
  | a :: b :: rest =>
    if Decimal.isDigit a ∧ Decimal.isDigit b then
      (takeOffsetMinutes? (rest.dropWhile fun c => c = ':' ∨ Text.isBlank c)).map fun p =>
        (Decimal.value [a, b] * 3600 + p.1 * 60, p.2)
    else none
  | _ => none

/-- An offset from universal time, in seconds. -/
def takeOffset? (s : List Char) : Option (Int × List Char) :=
  if Text.sameIgnoringAsciiCase (s.take 3) ['U', 'T', 'C'] then some (0, s.drop 3)
  else match s with
    | 'Z' :: rest | 'z' :: rest => some (0, rest)
    | '+' :: rest => (takeOffsetTime? rest).map fun p => ((p.1 : Int), p.2)
    | '-' :: rest | '−' :: rest => (takeOffsetTime? rest).map fun p => (-(p.1 : Int), p.2)
    | _ => none

/-- The date in front of a text. -/
def takeDate? (s : List Char) : Option (Date × List Char) := do
  let (year, s) ← takeYear? s
  let s ← takeMark? '-' s
  let (month, s) ← takeField? s
  let s ← takeMark? '-' s
  let (day, s) ← takeField? s
  let date : Date := ⟨year, month, day⟩
  if date.isValid then some (date, s) else none

/-- The time of day in front of a text, in seconds and nanoseconds. -/
def takeTime? (s : List Char) : Option ((Nat × Nat) × List Char) := do
  let (hour, s) ← takeField? s
  let s ← takeMark? ':' s
  let (minute, s) ← takeField? s
  let s ← takeMark? ':' s
  let (second, s) ← takeField? s
  let (nanos, s) ← takeFraction? s
  if hour < 24 ∧ minute < 60 ∧ second ≤ 60 then
    let extra := if second = 60 then 1000000000 else 0
    some ((hour * 3600 + minute * 60 + min second 59, nanos + extra), s)
  else none

/-- The universal time of a local date and second that are `offset` seconds
    ahead. -/
def ofLocal? (date : Date) (second nanos : Nat) (offset : Int) : Option Timestamp :=
  let total := date.toDays * 86400 + second - offset
  let t : Timestamp := ⟨Date.ofDays (total / 86400), (total % 86400).toNat, nanos⟩
  if offset.natAbs < 86400 ∧ t.date.isValid then some t else none

/-- The point in time that a text writes. -/
def read? (text : String) : Option Timestamp := do
  let (date, s) ← takeDate? text.toList
  let s ← match s with
    | 'T' :: rest | 't' :: rest | ' ' :: rest => some rest
    | _ => none
  let ((second, nanos), s) ← takeTime? s
  let (offset, s) ← takeOffset? (Text.trimStart s)
  if s.all Text.isBlank then ofLocal? date second nanos offset else none

end Timestamp

end Cuelist
