import AlertAdmission.Text
import AlertAdmission.Time.Calendar

/-!
Instants as text.

Written are a date, a time with seconds and, unless it is zero, a fraction of three, six or nine
digits, whichever is the least that loses nothing. A leap second is second 60 of its minute. Reading
also takes shorter fields, blanks between the parts, small letters, offsets from universal time, and
fractions of any length, of which the digits after the ninth are dropped.
-/

namespace AlertAdmission.Rfc3339

/-! ### Writing -/

/-- A year: four digits, with a sign outside of the years 0 to 9999. -/
def yearText (year : Int) : String :=
  if year < 0 then "-" ++ Text.zeroPadded 4 year.natAbs
  else if 9999 < year then "+" ++ Text.zeroPadded 4 year.natAbs
  else Text.zeroPadded 4 year.natAbs

def dateText (d : Date) : String :=
  yearText d.year ++ "-" ++ Text.zeroPadded 2 d.month ++ "-" ++ Text.zeroPadded 2 d.day

/-- A time of day in whole seconds, one more of them in a leap second. -/
def clockText (wall : WallTime) (leap : Bool) : String :=
  let seconds := sinceMidnight wall / 1000000000
  Text.zeroPadded 2 (seconds / 3600) ++ ":" ++ Text.zeroPadded 2 (seconds / 60 % 60) ++ ":" ++
    Text.zeroPadded 2 (if leap then seconds % 60 + 1 else seconds % 60)

def clockOf (t : Instant) : String := clockText t.wallTime t.leap

/-- A fraction of a second in nanoseconds, in as few groups of three digits as hold it. -/
def fractionText (nanos : Nat) : String :=
  if nanos = 0 then ""
  else if nanos % 1000000 = 0 then "." ++ Text.zeroPadded 3 (nanos / 1000000)
  else if nanos % 1000 = 0 then "." ++ Text.zeroPadded 6 (nanos / 1000)
  else "." ++ Text.zeroPadded 9 nanos

def unmarked (t : Instant) : String :=
  dateText (Date.ofDays (dayOf t.wallTime)) ++ "T" ++ clockOf t ++
    fractionText (sinceMidnight t.wallTime % 1000000000)

/-- An instant in universal time, marked by a `Z`. -/
def write (t : Instant) : String := unmarked t ++ "Z"

def writeWithOffset (t : Instant) : String := unmarked t ++ "+00:00"

/-! ### Reading -/

/-- A number of at least one and at most `limit` digits. -/
def number? (limit : Nat) (cs : List Char) : Option (Nat × List Char) :=
  let digits := (cs.take limit).takeWhile Char.isDigit
  if digits = [] then none else some (Text.natOfDigits digits, cs.drop digits.length)

def field? (cs : List Char) : Option (Nat × List Char) := number? 2 (Text.skipBlanks cs)

/-- What comes after an expected mark, which may have blanks before it. -/
def mark? (mark : Char) (cs : List Char) : Option (List Char) :=
  match Text.skipBlanks cs with
  | c :: rest => if c = mark then some rest else none
  | [] => none

/-- A year: up to four digits, or any number of them after a sign. -/
def year? (cs : List Char) : Option (Int × List Char) :=
  match Text.skipBlanks cs with
  | '-' :: rest => (number? rest.length rest).map fun (n, rest) => (-(n : Int), rest)
  | '+' :: rest => (number? rest.length rest).map fun (n, rest) => ((n : Int), rest)
  | rest => (number? 4 rest).map fun (n, rest) => ((n : Int), rest)

def date? (cs : List Char) : Option (Date × List Char) := do
  let (year, cs) ← year? cs
  let cs ← mark? '-' cs
  let (month, cs) ← field? cs
  let cs ← mark? '-' cs
  let (day, cs) ← field? cs
  if Date.isValid ⟨year, month, day⟩ then some (⟨year, month, day⟩, cs) else none

/-- A fraction of a second in nanoseconds; without a point there is none. -/
def fraction? (cs : List Char) : Option (Nat × List Char) :=
  match cs with
  | '.' :: rest =>
    let digits := rest.takeWhile Char.isDigit
    let kept := digits.take 9
    if digits = [] then none
    else some (Text.natOfDigits kept * Nat.pow 10 (9 - kept.length), rest.drop digits.length)
  | _ => some (0, cs)

/-- A time of day in nanoseconds since midnight, and whether it is in a leap second. That is a
second 60, which counts as the one before it. -/
def clock? (cs : List Char) : Option (Nat × Bool × List Char) := do
  let (hour, cs) ← field? cs
  let cs ← mark? ':' cs
  let (minute, cs) ← field? cs
  let cs ← mark? ':' cs
  let (second, cs) ← field? cs
  let (nanos, cs) ← fraction? cs
  let leap := second = 60
  let counted := if leap then 59 else second
  if hour ≤ 23 ∧ minute ≤ 59 ∧ counted ≤ 59
  then some (((hour * 60 + minute) * 60 + counted) * 1000000000 + nanos, leap, cs) else none

def pair? : List Char → Option (Nat × List Char)
  | a :: b :: rest =>
    if a.isDigit && b.isDigit then some (10 * Text.digitValue a + Text.digitValue b, rest) else none
  | _ => none

/-- Hours and minutes of an offset, in seconds. Colons and blanks may stand between them. -/
def offsetSize? (cs : List Char) : Option (Nat × List Char) := do
  let (hours, cs) ← pair? cs
  let (minutes, cs) ← pair? (cs.dropWhile fun c => c = ':' || Text.isBlank c)
  if hours ≤ 23 ∧ minutes ≤ 59 then some (hours * 3600 + minutes * 60, cs) else none

/-- The offset from universal time in seconds, positive to the east. -/
def offset? (cs : List Char) : Option (Int × List Char) :=
  match Text.skipBlanks cs with
  | 'Z' :: rest => some (0, rest)
  | 'z' :: rest => some (0, rest)
  | '+' :: rest => (offsetSize? rest).map fun (n, rest) => ((n : Int), rest)
  | '-' :: rest => (offsetSize? rest).map fun (n, rest) => (-(n : Int), rest)
  | '−' :: rest => (offsetSize? rest).map fun (n, rest) => (-(n : Int), rest)
  | a :: b :: c :: rest =>
    if [a, b, c].map Char.toLower = ['u', 't', 'c'] then some (0, rest) else none
  | _ => none

def between? : List Char → Option (List Char)
  | 'T' :: rest => some rest
  | 't' :: rest => some rest
  | ' ' :: rest => some rest
  | _ => none

def read? (s : String) : Option Instant := do
  let (date, cs) ← date? s.toList
  let cs ← between? cs
  let (nanos, leap, cs) ← clock? cs
  let (offset, cs) ← offset? cs
  let shown := startOfDay date.toDays + nanos
  let counted := shown - Span.ofSeconds offset
  if Text.skipBlanks cs = [] ∧ hasDate shown ∧ hasDate counted then some ⟨counted, leap⟩ else none

end AlertAdmission.Rfc3339
