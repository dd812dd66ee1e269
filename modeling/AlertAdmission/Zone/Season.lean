import AlertAdmission.Zone

/-!
Zones that put their clocks forward every year by the same rule.

A rule names a Sunday of a month and a time of that day, told by universal time, by the standard
time of the zone, or by its advanced time.
-/

namespace AlertAdmission

/-- A Sunday of a month: so many weeks after the first one, or the last one. -/
inductive SundayChoice where
  | afterFirst (weeks : Nat)
  | last
  deriving DecidableEq, Repr

/-- The clock by which the time of a switch is told. -/
inductive ClockReading where
  | universal
  | standard
  | advanced
  deriving DecidableEq, Repr

/-- A yearly switch: a Sunday, and the minutes from its midnight by one of the clocks. -/
structure YearlySwitch where
  month : Nat
  sunday : SundayChoice
  minutes : Int
  reading : ClockReading
  deriving DecidableEq, Repr

/-- A yearly period of advanced time: the standard offset and the gain over it in seconds, and the
switches at both ends. -/
structure Season where
  standard : Int
  gain : Int
  begins : YearlySwitch
  ends : YearlySwitch
  deriving DecidableEq, Repr

namespace Season

def readingOffset (s : Season) : ClockReading → Int
  | .universal => 0
  | .standard => s.standard
  | .advanced => s.standard + s.gain

def instantOf (s : Season) (switch : YearlySwitch) (year : Int) : Instant :=
  let day := match switch.sunday with
    | .afterFirst weeks => Date.sundayAfter weeks year switch.month
    | .last => Date.lastSunday year switch.month
  Instant.ofNanos (startOfDay day + Span.ofMinutes switch.minutes -
    Span.ofSeconds (s.readingOffset switch.reading))

def changesIn (s : Season) (year : Int) : List OffsetChange :=
  let begins : OffsetChange :=
    ⟨s.instantOf s.begins year, Span.ofSeconds (s.standard + s.gain)⟩
  let ends : OffsetChange := ⟨s.instantOf s.ends year, Span.ofSeconds s.standard⟩
  if s.begins.month < s.ends.month then [begins, ends] else [ends, begins]

def changes (s : Season) (firstYear : Int) (years : Nat) : List OffsetChange :=
  (List.range years).flatMap fun (n : Nat) => s.changesIn (firstYear + n)

def zone (s : Season) (name : String) (firstYear : Int) : Zone :=
  ⟨name, Span.ofSeconds s.standard, s.changes firstYear (2100 - firstYear).toNat⟩

/-- From the second Sunday of March to the first Sunday of November, at two o'clock. -/
def northAmerican (standard : Int) : Season where
  standard := standard
  gain := 3600
  begins := ⟨3, .afterFirst 1, 120, .standard⟩
  ends := ⟨11, .afterFirst 0, 120, .advanced⟩

/-- From the last Sunday of March to the last Sunday of October, at one o'clock universal time. -/
def european (standard : Int) : Season where
  standard := standard
  gain := 3600
  begins := ⟨3, .last, 60, .universal⟩
  ends := ⟨10, .last, 60, .universal⟩

end Season

end AlertAdmission
