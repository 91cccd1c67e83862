import IntentRouter.Json.Numeral

/-!
# Points in time

A timestamp is a civil date and time of day in coordinated universal time, to
the nanosecond; the second 60 is a leap second. It is read in the Internet
profile of the date and time format, leniently: blanks may stand around the
parts, fields may have fewer digits, and the separator and the zone marker may
be small. A local time is moved to universal time by its offset, which crosses
at most one midnight.
-/

namespace IntentRouter

/-- The year has a leap day in the Gregorian calendar. -/
def isLeapYear (year : Int) : Bool := year % 4 = 0 && (year % 100 ≠ 0 || year % 400 = 0)

/-- The number of days in a month. -/
def daysInMonth (year : Int) : Nat → Nat
  | 2 => if isLeapYear year then 29 else 28
  | 4 | 6 | 9 | 11 => 30
  | _ => 31

/-- A day of the calendar within the years that can be represented. -/
structure Date where
  /-- The year, counted through zero. -/
  year : Int
  /-- The month, from one. -/
  month : Nat
  /-- The day of the month, from one. -/
  day : Nat
  /-- The day exists and its year can be represented. -/
  exists_day : -262143 ≤ year ∧ year ≤ 262142 ∧ 1 ≤ month ∧ month ≤ 12 ∧
    1 ≤ day ∧ day ≤ daysInMonth year month
deriving DecidableEq

namespace Date

/-- The day with the given numbers, if it exists. -/
def of? (year : Int) (month day : Nat) : Option Date :=
  if h : -262143 ≤ year ∧ year ≤ 262142 ∧ 1 ≤ month ∧ month ≤ 12 ∧
      1 ≤ day ∧ day ≤ daysInMonth year month then
    some ⟨year, month, day, h⟩
  else none

/-- The following day. -/
def next? (d : Date) : Option Date :=
  if d.day < daysInMonth d.year d.month then of? d.year d.month (d.day + 1)
  else if d.month < 12 then of? d.year (d.month + 1) 1
  else of? (d.year + 1) 1 1

/-- The day before. -/
def previous? (d : Date) : Option Date :=
  if 1 < d.day then of? d.year d.month (d.day - 1)
  else if 1 < d.month then of? d.year (d.month - 1) (daysInMonth d.year (d.month - 1))
  else of? (d.year - 1) 12 31

end Date

/-- A point in time. -/
structure Timestamp where
  /-- The day. -/
  date : Date
  /-- The hour of the day. -/
  hour : Nat
  /-- The minute of the hour. -/
  minute : Nat
  /-- The second of the minute; 60 is a leap second. -/
  second : Nat
  /-- The nanoseconds within the second. -/
  nanos : Nat
  /-- The time of day exists. -/
  exists_time : hour < 24 ∧ minute < 60 ∧ second ≤ 60 ∧ nanos < 1000000000
deriving DecidableEq

namespace Timestamp

/-- The point in time with the given parts, if it exists. -/
def of? (date : Date) (hour minute second nanos : Nat) : Option Timestamp :=
  if h : hour < 24 ∧ minute < 60 ∧ second ≤ 60 ∧ nanos < 1000000000 then
    some ⟨date, hour, minute, second, nanos, h⟩
  else none

/-- The first moment of the year 1970. -/
def epoch : Timestamp := ⟨⟨1970, 1, 1, by decide⟩, 0, 0, 0, 0, by decide⟩

instance : Inhabited Timestamp := ⟨epoch⟩

/-- The same clock reading taken in a zone that is `offset` minutes ahead. -/
def fromZone? (t : Timestamp) (offset : Int) : Option Timestamp :=
  let minutes : Int := t.hour * 60 + t.minute - offset
  let at? (date : Date) (minutes : Int) : Option Timestamp :=
    of? date (minutes.toNat / 60) (minutes.toNat % 60) t.second t.nanos
  if minutes < 0 then t.date.previous?.bind (at? · (minutes + 1440))
  else if 1440 ≤ minutes then t.date.next?.bind (at? · (minutes - 1440))
  else at? t.date minutes

/-! ## Reading -/

/-- The characters that count as blank: those with the property White_Space. -/
def isWhite (c : Char) : Bool :=
  let n := c.toNat
  (0x9 ≤ n && n ≤ 0xD) || n = 0x20 || n = 0x85 || n = 0xA0 || n = 0x1680 ||
    (0x2000 ≤ n && n ≤ 0x200A) || n = 0x2028 || n = 0x2029 || n = 0x202F || n = 0x205F || n = 0x3000

/-- Drops blanks. -/
def skipBlanks (cs : List Char) : List Char := cs.dropWhile isWhite

/-- Reads at least one and at most `width` digits; no width means all of them. -/
def digits? (width : Option Nat) (cs : List Char) : Option (List Char × List Char) :=
  let all := cs.takeWhile Char.isDigit
  let taken := width.elim all all.take
  if taken = [] then none else some (taken, cs.drop taken.length)

/-- Reads a number of at most two digits after any blanks. -/
def two? (cs : List Char) : Option (Nat × List Char) :=
  (digits? (some 2) (skipBlanks cs)).map fun (ds, rest) => (Json.Numeral.digitsValue ds, rest)

/-- Reads a year after any blanks: at most four digits, or a sign and any number of them. -/
def year? (cs : List Char) : Option (Int × List Char) :=
  match skipBlanks cs with
  | '-' :: rest =>
    (digits? none rest).map fun (ds, rest) => (-(Json.Numeral.digitsValue ds : Int), rest)
  | '+' :: rest =>
    (digits? none rest).map fun (ds, rest) => ((Json.Numeral.digitsValue ds : Int), rest)
  | rest =>
    (digits? (some 4) rest).map fun (ds, rest) => ((Json.Numeral.digitsValue ds : Int), rest)

/-- Reads the given mark after any blanks. -/
def mark? (mark : Char) (cs : List Char) : Option (List Char) :=
  match skipBlanks cs with
  | c :: rest => if c = mark then some rest else none
  | [] => none

/-- Reads the fraction of a second, if there is one. Digits after the ninth are dropped. -/
def fraction? : List Char → Option (Nat × List Char)
  | '.' :: rest =>
    (digits? (some 9) rest).map fun (ds, more) =>
      (Json.Numeral.digitsValue ds * Nat.pow 10 (9 - ds.length), more.dropWhile Char.isDigit)
  | cs => some (0, cs)

/-- Reads exactly two digits. -/
def pair? : List Char → Option (Nat × List Char)
  | a :: b :: rest =>
    if a.isDigit ∧ b.isDigit then some (Json.Numeral.digitsValue [a, b], rest) else none
  | _ => none

/-- Reads the hours and minutes of an offset. Colons and blanks may stand between them. -/
def offset? (cs : List Char) : Option (Nat × List Char) :=
  (pair? cs).bind fun (hours, rest) =>
    (pair? (rest.dropWhile fun c => c = ':' || isWhite c)).bind fun (minutes, rest) =>
      if minutes < 60 ∧ hours < 24 then some (60 * hours + minutes, rest) else none

/-- Reads a zone: the marker of universal time, or a signed offset in minutes. -/
def zone? (cs : List Char) : Option (Int × List Char) :=
  if (cs.take 3).map Char.toUpper = ['U', 'T', 'C'] then some (0, cs.drop 3)
  else match cs with
    | 'Z' :: rest => some (0, rest)
    | 'z' :: rest => some (0, rest)
    | '+' :: rest => (offset? rest).map fun (m, rest) => ((m : Int), rest)
    | '-' :: rest => (offset? rest).map fun (m, rest) => (-(m : Int), rest)
    | '−' :: rest => (offset? rest).map fun (m, rest) => (-(m : Int), rest)
    | _ => none

/-- Reads a date and what separates it from the time. -/
def date? (cs : List Char) : Option (Date × List Char) := do
  let (year, cs) ← year? cs
  let cs ← mark? '-' cs
  let (month, cs) ← two? cs
  let cs ← mark? '-' cs
  let (day, cs) ← two? cs
  let date ← Date.of? year month day
  match cs with
  | c :: rest => if c = 'T' ∨ c = 't' ∨ c = ' ' then some (date, rest) else none
  | [] => none

/-- Reads a point in time, up to blanks at the end. -/
def ofString? (s : String) : Option Timestamp := do
  let (date, cs) ← date? s.toList
  let (hour, cs) ← two? cs
  let cs ← mark? ':' cs
  let (minute, cs) ← two? cs
  let cs ← mark? ':' cs
  let (second, cs) ← two? cs
  let (nanos, cs) ← fraction? cs
  let (offset, cs) ← zone? (skipBlanks cs)
  let written ← of? date hour minute second nanos
  if skipBlanks cs = [] then written.fromZone? offset else none

/-! ## Writing -/

/-- A number with zeros in front up to the given width. -/
def padded (width n : Nat) : List Char :=
  let ds := Nat.toDigits 10 n
  List.replicate (width - ds.length) '0' ++ ds

/-- Four digits of a year; outside the years 0 to 9999 a sign stands in front. -/
def yearChars (year : Int) : List Char :=
  (if 0 ≤ year ∧ year ≤ 9999 then [] else if year < 0 then ['-'] else ['+']) ++
    padded 4 year.natAbs

/-- The fraction of a second with three, six or nine digits, the fewest that lose
nothing; none for a whole second. -/
def fractionChars (nanos : Nat) : List Char :=
  if nanos = 0 then []
  else if nanos % 1000000 = 0 then '.' :: padded 3 (nanos / 1000000)
  else if nanos % 1000 = 0 then '.' :: padded 6 (nanos / 1000)
  else '.' :: padded 9 nanos

/-- The text of a point in time, with the marker of universal time. -/
def text (t : Timestamp) : String :=
  String.ofList <|
    yearChars t.date.year ++ '-' :: padded 2 t.date.month ++ '-' :: padded 2 t.date.day ++
      'T' :: padded 2 t.hour ++ ':' :: padded 2 t.minute ++ ':' :: padded 2 t.second ++
        fractionChars t.nanos ++ ['Z']

end Timestamp

end IntentRouter
