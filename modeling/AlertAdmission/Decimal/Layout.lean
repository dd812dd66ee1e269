import AlertAdmission.Decimal.Shortest
import AlertAdmission.Text

/-!
Doubles as text, and text as doubles.

Three forms are written: the plain form never uses an exponent and marks a whole number by nothing,
and of two equally short and near numbers it takes the larger; the document form is that of JSON
documents, with an exponent outside a middle range and a point in every whole number, and takes the
even one; the fixed form has a set number of places, rounded from the exact binary value
with a half going to the even digit.
-/

namespace AlertAdmission.Decimal

def zeros (n : Nat) : String := String.ofList (List.replicate n '0')

/-- Digits with a point before the last `places` of them. -/
def withPoint (digits : String) (places : Nat) : String :=
  let padded := zeros (places + 1 - digits.length) ++ digits
  let cs := padded.toList
  let whole := cs.length - places
  String.ofList (cs.take whole) ++ "." ++ String.ofList (cs.drop whole)

def positional (d : Scientific) : String :=
  let digits := Nat.repr d.coefficient
  if 0 ≤ d.power then digits ++ zeros d.power.toNat else withPoint digits (-d.power).toNat

def sign (negative : Bool) : String := if negative then "-" else ""

/-- A double in the fewest digits that identify it, never with an exponent. -/
def plain : Binary64 → String
  | .finite negative 0 _ => sign negative ++ "0"
  | .finite negative m e => sign negative ++ positional (shortest .larger m e)
  | .infinite negative => sign negative ++ "inf"
  | .notANumber => "NaN"

/-- A decimal number as JSON documents show it: positional when the point falls at most sixteen
places after the first digit or five zeros before it, else with an exponent. -/
def documentDigits (d : Scientific) : String :=
  let digits := Nat.repr d.coefficient
  let point : Int := digits.length + d.power
  if 0 ≤ d.power ∧ point ≤ 16 then positional d ++ ".0"
  else if -5 < point ∧ point ≤ 16 then positional d
  else
    let fraction := String.ofList (digits.toList.drop 1)
    let lead := String.ofList (digits.toList.take 1)
    lead ++ (if fraction = "" then "" else "." ++ fraction) ++ "e" ++ toString (point - 1)

/-- A double as JSON documents show it; what is no number is shown as null. -/
def document : Binary64 → String
  | .finite negative 0 _ => sign negative ++ "0.0"
  | .finite negative m e => sign negative ++ documentDigits (shortest .even m e)
  | _ => "null"

def fixed (places : Nat) : Binary64 → String
  | .finite negative m e =>
    let f := Binary64.magnitude m e
    let scaled := Binary64.divideToEven (f.1 * Nat.pow 10 places) f.2
    sign negative ++
      if places = 0 then Nat.repr scaled else withPoint (Nat.repr scaled) places
  | .infinite negative => sign negative ++ "inf"
  | .notANumber => "NaN"

/-- The digits of a decimal number after its sign: whole digits, fraction digits and a power of
ten. Either run of digits may be empty, but not both. -/
structure Numeral where
  whole : List Char
  fraction : List Char
  power : Int
  deriving DecidableEq, Repr

def Numeral.toBinary64 (negative : Bool) (n : Numeral) : Binary64 :=
  Binary64.ofDecimal negative (Text.natOfDigits (n.whole ++ n.fraction))
    (n.power - n.fraction.length)

/-- A power of ten after the letter that announces it, up to the end of the text. -/
def power? : List Char → Option Int
  | [] => some 0
  | c :: rest => if c = 'e' ∨ c = 'E' then Text.integer? rest else none

/-- A numeral without a sign, up to the end of the text: digits with an optional point among them
and an optional power of ten. -/
def numeral? (cs : List Char) : Option Numeral := do
  let whole := cs.takeWhile Char.isDigit
  let rest := cs.dropWhile Char.isDigit
  let afterPoint := match rest with
    | '.' :: tail => tail
    | _ => []
  let fraction := afterPoint.takeWhile Char.isDigit
  let rest := match rest with
    | '.' :: tail => tail.dropWhile Char.isDigit
    | other => other
  let power ← power? rest
  if whole = [] ∧ fraction = [] then none else some ⟨whole, fraction, power⟩

/-- The magnitude of a double: a numeral, or the word for an infinity or for no number. -/
def unsignedDouble? (negative : Bool) (cs : List Char) : Option Binary64 :=
  let word := Text.lower (String.ofList cs)
  if word = "inf" ∨ word = "infinity" then some (.infinite negative)
  else if word = "nan" then some .notANumber
  else (numeral? cs).map (Numeral.toBinary64 negative)

def double? : List Char → Option Binary64
  | '-' :: rest => unsignedDouble? true rest
  | '+' :: rest => unsignedDouble? false rest
  | cs => unsignedDouble? false cs

end AlertAdmission.Decimal
