import AlertAdmission.Text

/-!
Durations as text.

A duration is a natural number of nanoseconds, below 2^64 seconds. It is written in years of
31557600 s, months of 2630016 s, days, hours, minutes, seconds and the parts of a second, and read
as a sum of numbers with units. A second, shorter form shows one unit and a decimal fraction.
-/

namespace AlertAdmission

/-- A length of time that is not negative, in nanoseconds. -/
abbrev Duration := Nat

namespace Duration

def ofSeconds (s : Nat) : Duration := s * 1000000000

def ofMillis (ms : Nat) : Duration := ms * 1000000

/-! ### Writing -/

/-- A count with its unit, in the plural unless it is one; nothing where it is zero. -/
def counted (count : Nat) (unit : String) : List String :=
  if count = 0 then []
  else if count = 1 then ["1" ++ unit]
  else [Nat.repr count ++ unit ++ "s"]

def measured (count : Nat) (symbol : String) : List String :=
  if count = 0 then [] else [Nat.repr count ++ symbol]

/-- The parts of a duration that are not zero, the largest first. -/
def parts (d : Duration) : List String :=
  let seconds := d / 1000000000
  let nanos := d % 1000000000
  let inYear := seconds % 31557600
  let inMonth := inYear % 2630016
  let inDay := inMonth % 86400
  counted (seconds / 31557600) "year" ++ counted (inYear / 2630016) "month" ++
    counted (inMonth / 86400) "day" ++ measured (inDay / 3600) "h" ++
    measured (inDay % 3600 / 60) "m" ++ measured (inDay % 60) "s" ++
    measured (nanos / 1000000) "ms" ++ measured (nanos / 1000 % 1000) "us" ++
    measured (nanos % 1000) "ns"

def write (d : Duration) : String :=
  if d = 0 then "0s" else String.intercalate " " (parts d)

/-- A number of units of `10 ^ places` nanoseconds, as a decimal number without trailing zeros. -/
def decimal (places : Nat) (d : Duration) (symbol : String) : String :=
  let unit := Nat.pow 10 places
  let fraction := (Text.zeroPadded places (d % unit)).toList.reverse.dropWhile (· = '0')
  Nat.repr (d / unit) ++
    (if fraction = [] then "" else "." ++ String.ofList fraction.reverse) ++ symbol

/-- A duration in the largest of seconds, milliseconds, microseconds and nanoseconds of which it
has at least one. -/
def brief (d : Duration) : String :=
  if 1000000000 ≤ d then decimal 9 d "s"
  else if 1000000 ≤ d then decimal 6 d "ms"
  else if 1000 ≤ d then decimal 3 d "µs"
  else Nat.repr d ++ "ns"

/-! ### Reading -/

/-- A unit of time with its size. Whole numbers of it are counted in one grid and fractions, where
it has them, in another, both in nanoseconds, and each count has to fit a word of 64 bits. -/
structure TimeUnit where
  size : Nat
  wholeGrid : Nat
  fractionGrid : Option Nat
  deriving DecidableEq, Repr

def TimeUnit.nanosecond : TimeUnit := ⟨1, 1, none⟩

/-- A unit below a second: counted in nanoseconds. -/
def TimeUnit.small (nanos : Nat) : TimeUnit := ⟨nanos, 1, some 1⟩

/-- A unit of so many seconds, fractions of which are counted in nanoseconds. -/
def TimeUnit.medium (seconds : Nat) : TimeUnit := ⟨seconds * 1000000000, 1000000000, some 1⟩

/-- A unit of so many seconds, fractions of which are counted in seconds. -/
def TimeUnit.large (seconds : Nat) : TimeUnit :=
  ⟨seconds * 1000000000, 1000000000, some 1000000000⟩

/-- The unit of a word. Small and capital letters are told apart. -/
def unit? (word : String) : Option TimeUnit :=
  match word with
  | "nanos" | "nsec" | "ns" => some .nanosecond
  | "usec" | "us" | "µs" => some (.small 1000)
  | "millis" | "msec" | "ms" => some (.small 1000000)
  | "seconds" | "second" | "secs" | "sec" | "s" => some (.medium 1)
  | "minutes" | "minute" | "min" | "mins" | "m" => some (.medium 60)
  | "hours" | "hour" | "hr" | "hrs" | "h" => some (.large 3600)
  | "days" | "day" | "d" => some (.large 86400)
  | "weeks" | "week" | "wk" | "wks" | "w" => some (.large 604800)
  | "months" | "month" | "M" => some (.large 2630016)
  | "years" | "year" | "yr" | "yrs" | "y" => some (.large 31557600)
  | _ => none

def isUnitLetter (c : Char) : Bool := c.isAlpha || c = 'µ'

def spaced (cs : List Char) : List Char × List Char :=
  let run := cs.takeWhile fun c => c.isDigit || Text.isBlank c
  (run.filter Char.isDigit, cs.drop run.length)

def word? (n : Nat) : Option Nat := if n < UInt64.size then some n else none

/-- The digits after a point, if there is one; a point without digits is refused. -/
def fraction? : List Char → Option (List Char × List Char)
  | '.' :: rest => if (spaced rest).1 = [] then none else some (spaced rest)
  | cs => some ([], cs)

/-- A duration with the size of one more part, its whole number and its fraction. -/
def add? (total grid count : Nat) : Option Duration := do
  let count ← word? count
  if grid = 1 then
    let _ ← word? (total % 1000000000 + count)
  let _ ← word? ((total + count * grid) / 1000000000)
  some (total + count * grid)

def addWhole? (total : Duration) (unit : TimeUnit) (digits : List Char) : Option Duration := do
  let n ← word? (Text.natOfDigits digits)
  add? total unit.wholeGrid (n * (unit.size / unit.wholeGrid))

def addFraction? (total : Duration) (unit : TimeUnit) (digits : List Char) : Option Duration :=
  if digits = [] then some total
  else do
    let grid ← unit.fractionGrid
    let denominator ← word? (Nat.pow 10 digits.length)
    let numerator ← word? (Text.natOfDigits digits * (unit.size / grid))
    if numerator % denominator = 0 then add? total grid (numerator / denominator) else none

def part? (total : Duration) (cs : List Char) : Option (Duration × List Char) := do
  let (whole, rest) := spaced cs
  let (fraction, rest) ← fraction? rest
  let letters := rest.takeWhile isUnitLetter
  let unit ← unit? (String.ofList letters)
  if (cs.head?.map Char.isDigit).getD false then
    let total ← addWhole? total unit whole
    let total ← addFraction? total unit fraction
    some (total, rest.drop letters.length)
  else none

/-- The duration so far with all numbers and units up to the end of a text, at most `fuel` of
them. -/
def parts? : Nat → Duration → List Char → Option Duration
  | 0, _, _ => none
  | fuel + 1, total, cs =>
    match part? total (Text.skipBlanks cs) with
    | none => none
    | some (total, rest) =>
      if Text.skipBlanks rest = [] then some total else parts? fuel total rest

def read? (s : String) : Option Duration :=
  if s = "0" then some 0 else parts? (s.toList.length + 1) 0 s.toList

end Duration

end AlertAdmission
