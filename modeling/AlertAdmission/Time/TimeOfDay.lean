import AlertAdmission.Text

/-!
Times of day, written as hours and minutes and held as minutes past midnight.

One or two digits stand on each side of a colon, with blanks allowed around the whole. The hour is
at most 23 and the minute at most 59.
-/

namespace AlertAdmission.TimeOfDay

inductive Fault where
  | malformed (text : String)
  | outOfRange (hour minute : Nat)
  deriving DecidableEq, Repr

def Fault.message : Fault → String
  | .malformed text => "invalid time format '" ++ text ++ "' (expected HH:MM)"
  | .outOfRange hour minute =>
    "invalid time values: " ++ Text.zeroPadded 2 hour ++ ":" ++ Text.zeroPadded 2 minute

def isField (cs : List Char) : Bool :=
  1 ≤ cs.length && cs.length ≤ 2 && cs.all Char.isDigit

def parse (text : String) : Except Fault Nat :=
  match Text.splitFirst ':' (Text.trim text.toList) with
  | none => .error (.malformed text)
  | some (hourText, minuteText) =>
    if isField hourText && isField minuteText then
      let hour := Text.natOfDigits hourText
      let minute := Text.natOfDigits minuteText
      if 23 < hour ∨ 59 < minute then .error (.outOfRange hour minute)
      else .ok (hour * 60 + minute)
    else .error (.malformed text)

theorem parse_lt {text : String} {minute : Nat} (h : parse text = .ok minute) : minute < 1440 := by
  unfold parse at h
  split at h
  · cases h
  · split at h
    · dsimp only at h
      split at h
      · cases h
      · next inRange =>
        cases h
        omega
    · cases h

theorem ne_empty_of_parse {text : String} {minute : Nat} (h : parse text = .ok minute) :
    text ≠ "" := by
  rintro rfl
  cases h

end AlertAdmission.TimeOfDay
