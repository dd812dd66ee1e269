/-!
Double-precision numbers held exactly: a sign, a natural significand and a power of two.

Every operation is integer arithmetic. A quotient is rounded once, to the nearest double, and a
quotient halfway between two doubles goes to the one with the even significand.
-/

namespace AlertAdmission

/-- A double: `± significand * 2 ^ exponent`, an infinity, or not a number. Zeros and the numbers
below the normal range have the least exponent; all others have a significand of 53 bits. -/
inductive Binary64 where
  | finite (negative : Bool) (significand : Nat) (exponent : Int)
  | infinite (negative : Bool)
  | notANumber
  deriving DecidableEq, Repr

namespace Binary64

/-- The power of two of the last place of the numbers closest to zero. -/
def leastExponent : Int := -1074

/-- The power of two of the last place of the largest finite numbers. -/
def greatestExponent : Int := 971

def leastFull : Nat := 0x10000000000000

def zero (negative : Bool) : Binary64 := .finite negative 0 leastExponent

/-- The quotient rounded to the nearest natural number, a half to the even neighbour. -/
def divideToEven (num den : Nat) : Nat :=
  let q := num / den
  let r := num % den
  if 2 * r < den then q
  else if den < 2 * r then q + 1
  else if q % 2 = 0 then q else q + 1

/-- The fraction `num / den` in units of `2 ^ exponent`, as a fraction again. -/
def inUnits (num den : Nat) (exponent : Int) : Nat × Nat :=
  if 0 ≤ exponent then (num, den * Nat.pow 2 exponent.toNat)
  else (num * Nat.pow 2 (-exponent).toNat, den)

/-- The power of two of the last place of the double nearest to a positive fraction: the one that
leaves 53 bits before the point, but not below the least exponent. -/
def lastPlace (num den : Nat) : Int :=
  let guess : Int := (Nat.log2 num : Int) - (Nat.log2 den : Int) - 52
  let scaled := inUnits num den guess
  let exponent := if scaled.1 < leastFull * scaled.2 then guess - 1 else guess
  if exponent < leastExponent then leastExponent else exponent

/-- The double nearest to a fraction with a positive denominator, with the given sign. -/
def ofFraction (negative : Bool) (num den : Nat) : Binary64 :=
  if num = 0 then zero negative
  else
    let exponent := lastPlace num den
    let scaled := inUnits num den exponent
    let rounded := divideToEven scaled.1 scaled.2
    let carried := rounded = 2 * leastFull
    let significand := if carried then leastFull else rounded
    let exponent := if carried then exponent + 1 else exponent
    if greatestExponent < exponent then .infinite negative
    else .finite negative significand exponent

def ofNat (n : Nat) : Binary64 := ofFraction false n 1

def ofInt (i : Int) : Binary64 := ofFraction (decide (i < 0)) i.natAbs 1

/-- The double nearest to `± coefficient * 10 ^ power`. Powers far outside the range of doubles
are not computed: the number is then known to be zero or infinite. -/
def ofDecimal (negative : Bool) (coefficient : Nat) (power : Int) : Binary64 :=
  if coefficient = 0 then zero negative
  else if 400 < power then .infinite negative
  else if power + (Nat.repr coefficient).length < -400 then zero negative
  else if 0 ≤ power then ofFraction negative (coefficient * Nat.pow 10 power.toNat) 1
  else ofFraction negative coefficient (Nat.pow 10 (-power).toNat)

def magnitude (significand : Nat) (exponent : Int) : Nat × Nat :=
  if 0 ≤ exponent then (significand * Nat.pow 2 exponent.toNat, 1)
  else (significand, Nat.pow 2 (-exponent).toNat)

def div : Binary64 → Binary64 → Binary64
  | .finite s m e, .finite t n f =>
    if n = 0 then (if m = 0 then .notANumber else .infinite (s ^^ t))
    else
      let a := magnitude m e
      let b := magnitude n f
      ofFraction (s ^^ t) (a.1 * b.2) (a.2 * b.1)
  | .infinite s, .finite t _ _ => .infinite (s ^^ t)
  | .finite s _ _, .infinite t => zero (s ^^ t)
  | _, _ => .notANumber

def isZero : Binary64 → Bool
  | .finite _ 0 _ => true
  | _ => false

def isPositive : Binary64 → Bool
  | .finite negative m _ => !negative && m != 0
  | .infinite negative => !negative
  | .notANumber => false

def isFinite : Binary64 → Bool
  | .finite _ _ _ => true
  | _ => false

def wholePart (significand : Nat) (exponent : Int) : Nat :=
  (magnitude significand exponent).1 / (magnitude significand exponent).2

/-- The whole part of a finite number, rounded toward zero. -/
def toInt? : Binary64 → Option Int
  | .finite negative m e => some (if negative then -(wholePart m e : Int) else wholePart m e)
  | _ => none

/-- The number without its fraction; its sign stays, also on zero. -/
def truncate : Binary64 → Binary64
  | .finite negative m e => ofFraction negative (wholePart m e) 1
  | x => x

/-- The number without its fraction, moved into `0 … limit`; zero where there is no number. -/
def clampToNat (limit : Nat) : Binary64 → Nat
  | .finite negative m e =>
    if negative then 0 else if wholePart m e < limit then wholePart m e else limit
  | .infinite negative => if negative then 0 else limit
  | .notANumber => 0

/-- The nearest whole number with a half going up, moved into `0 … limit`; zero where there is no
number. -/
def roundToNat (limit : Nat) : Binary64 → Nat
  | .finite negative m e =>
    let f := magnitude m e
    let rounded := (2 * f.1 + f.2) / (2 * f.2)
    if negative then 0 else if rounded < limit then rounded else limit
  | x => clampToNat limit x

def signBit (negative : Bool) : Nat := if negative then 0x8000000000000000 else 0

def toWord : Binary64 → Nat
  | .finite negative m e =>
    if m < leastFull then signBit negative + m
    else signBit negative + (e + 1075).toNat * leastFull + (m - leastFull)
  | .infinite negative => signBit negative + 2047 * leastFull
  | .notANumber => 2047 * leastFull + leastFull / 2

end Binary64

end AlertAdmission
