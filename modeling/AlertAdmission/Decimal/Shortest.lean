import AlertAdmission.Decimal.Binary64

/-!
The fewest decimal digits that identify a double.

The numbers that round to a given double form an interval around it; its ends belong to it when the
significand is even. For one, two, … seventeen digits the two decimal numbers of that many digits
next to the double are tried, and the first count with a number in the interval is taken. Of two
hits the nearer one wins; which of two equally near ones wins is the caller's choice.
-/

namespace AlertAdmission.Decimal

/-- Which of two equally near decimal numbers is taken. -/
inductive Tie where
  | larger
  | even
  deriving DecidableEq, Repr

/-- A decimal number `coefficient * 10 ^ power`. -/
structure Scientific where
  coefficient : Nat
  power : Int
  deriving DecidableEq, Repr

def Scientific.fraction (d : Scientific) : Nat × Nat :=
  if 0 ≤ d.power then (d.coefficient * Nat.pow 10 d.power.toNat, 1)
  else (d.coefficient, Nat.pow 10 (-d.power).toNat)

def digitCount (n : Nat) : Nat := (Nat.repr n).length

def leadingPower (num den : Nat) : Int :=
  if den ≤ num then (digitCount (num / den) : Int) - 1
  else -(digitCount ((num + den - 1) / num - 1) : Int)

/-- Whether one fraction is less than another; denominators are positive. -/
def below (a b : Nat × Nat) : Bool := a.1 * b.2 < b.1 * a.2

/-- Whether the decimal number rounds to the double `significand * 2 ^ exponent`. -/
def identifies (significand : Nat) (exponent : Int) (d : Scientific) : Bool :=
  let narrow := significand = Binary64.leastFull ∧ Binary64.leastExponent < exponent
  let low := Binary64.magnitude (4 * significand - if narrow then 1 else 2) (exponent - 2)
  let high := Binary64.magnitude (4 * significand + 2) (exponent - 2)
  if significand % 2 = 0 then !below d.fraction low && !below high d.fraction
  else below low d.fraction && below d.fraction high

/-- Of the two decimal numbers next to a double on the grid of a power of ten, the nearest one that
identifies it. -/
def onGrid (tie : Tie) (significand : Nat) (exponent power : Int) : Option Scientific :=
  let v := Binary64.magnitude significand exponent
  let unit := Scientific.fraction ⟨1, power⟩
  let step := v.2 * unit.1
  let floor := v.1 * unit.2 / step
  let twiceRest := 2 * (v.1 * unit.2 % step)
  let lower : Scientific := ⟨floor, power⟩
  let upper : Scientific := ⟨floor + 1, power⟩
  let upperIsNear := step < twiceRest ∨ step = twiceRest ∧ (tie = .larger ∨ floor % 2 = 1)
  match identifies significand exponent lower, identifies significand exponent upper with
  | true, true => some (if upperIsNear then upper else lower)
  | true, false => some lower
  | false, true => some upper
  | false, false => none

/-- A decimal number without trailing zeros in its coefficient, which has at most `fuel` of them. -/
def stripZeros : Nat → Scientific → Scientific
  | 0, d => d
  | fuel + 1, d =>
    if d.coefficient ≠ 0 ∧ d.coefficient % 10 = 0
    then stripZeros fuel ⟨d.coefficient / 10, d.power + 1⟩ else d

/-- The fewest digits that identify a positive double, seventeen at the most. -/
def shortest (tie : Tie) (significand : Nat) (exponent : Int) : Scientific :=
  let v := Binary64.magnitude significand exponent
  let first := leadingPower v.1 v.2
  let found := (List.range 17).findSome? fun (n : Nat) =>
    onGrid tie significand exponent (first - (n : Int))
  stripZeros 20 (found.getD ⟨significand, 0⟩)

end AlertAdmission.Decimal
