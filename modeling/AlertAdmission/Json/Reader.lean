import AlertAdmission.Json

/-!
Reading a JSON document from text.

A number is whole when it has neither point nor exponent and fits the range of JSON integers; every
other number is the nearest double. Of members of one name the last one counts. Reading a value
takes fuel, one unit for each value, member or item begun, so the length of the text suffices.
-/

namespace AlertAdmission.Json.Reader

def isGap (c : Char) : Bool := c = ' ' || c = '\n' || c = '\r' || c = '\t'

def skipGaps (cs : List Char) : List Char := cs.dropWhile isGap

def hexValue? (c : Char) : Option Nat :=
  if c.isDigit then some (c.toNat - '0'.toNat)
  else if 'a' ≤ c ∧ c ≤ 'f' then some (c.toNat - 'a'.toNat + 10)
  else if 'A' ≤ c ∧ c ≤ 'F' then some (c.toNat - 'A'.toNat + 10)
  else none

def unit? : List Char → Option (Nat × List Char)
  | a :: b :: c :: d :: rest => do
    let a ← hexValue? a
    let b ← hexValue? b
    let c ← hexValue? c
    let d ← hexValue? d
    some (((a * 16 + b) * 16 + c) * 16 + d, rest)
  | _ => none

/-- A character after `\u`: one code unit, or two that together name a character. A half of such a
pair that stands alone is refused. -/
def escapedUnit? (cs : List Char) : Option (Char × List Char) := do
  let (high, rest) ← unit? cs
  if high < 0xD800 ∨ 0xDFFF < high then some (Char.ofNat high, rest)
  else match rest with
    | '\\' :: 'u' :: tail =>
      let (low, rest) ← unit? tail
      if high < 0xDC00 ∧ 0xDC00 ≤ low ∧ low ≤ 0xDFFF
      then some (Char.ofNat (0x10000 + (high - 0xD800) * 0x400 + (low - 0xDC00)), rest)
      else none
    | _ => none

def escaped? : List Char → Option (Char × List Char)
  | '"' :: rest => some ('"', rest)
  | '\\' :: rest => some ('\\', rest)
  | '/' :: rest => some ('/', rest)
  | 'b' :: rest => some (Char.ofNat 8, rest)
  | 'f' :: rest => some (Char.ofNat 12, rest)
  | 'n' :: rest => some ('\n', rest)
  | 'r' :: rest => some ('\r', rest)
  | 't' :: rest => some ('\t', rest)
  | 'u' :: rest => escapedUnit? rest
  | _ => none

/-- The rest of a text after its opening quote; `done` holds the characters read, last first. -/
def textTail? : Nat → List Char → List Char → Option (String × List Char)
  | 0, _, _ => none
  | _ + 1, _, [] => none
  | fuel + 1, done, c :: rest =>
    if c = '"' then some (String.ofList done.reverse, rest)
    else if c = '\\' then
      match escaped? rest with
      | none => none
      | some (e, rest) => textTail? fuel (e :: done) rest
    else if c.toNat < 0x20 then none
    else textTail? fuel (c :: done) rest

/-- The sign, digits, point and exponent at the start of a text. -/
def number? (cs : List Char) : Option (Json × List Char) := do
  let negative := cs.head? = some '-'
  let cs := if negative then cs.drop 1 else cs
  let whole := cs.takeWhile Char.isDigit
  let rest := cs.dropWhile Char.isDigit
  if whole = [] ∨ (whole.head? = some '0' ∧ 1 < whole.length) then none else
  let (fraction, rest, pointed) := match rest with
    | '.' :: tail => (tail.takeWhile Char.isDigit, tail.dropWhile Char.isDigit, true)
    | other => ([], other, false)
  if pointed ∧ fraction = [] then none else
  let (power, rest, raised) := match rest with
    | c :: tail =>
      if c = 'e' ∨ c = 'E' then
        let signs := tail.takeWhile fun c => c = '+' || c = '-'
        let digits := (tail.drop signs.length).takeWhile Char.isDigit
        (Text.integer? (signs ++ digits), tail.drop (signs.length + digits.length), true)
      else (some 0, c :: tail, false)
    | [] => (some 0, [], false)
  let power ← power
  let size : Int := Text.natOfDigits whole
  let value := if negative then -size else size
  if !pointed && !raised && decide (leastInt ≤ value) && decide (value ≤ greatestInt)
  then some (.int value, rest)
  else some (.float (Decimal.Numeral.toBinary64 negative ⟨whole, fraction, power⟩), rest)

/-- The members with one more; an earlier member of its name is dropped. -/
def addMember (members : List (String × Json)) (name : String) (value : Json) :
    List (String × Json) :=
  members.filter (fun m => m.1 != name) ++ [(name, value)]

def expect? (word : List Char) (cs : List Char) : Option (List Char) :=
  if word.isPrefixOf cs then some (cs.drop word.length) else none

mutual

def value? : Nat → List Char → Option (Json × List Char)
  | 0, _ => none
  | fuel + 1, cs =>
    match skipGaps cs with
    | [] => none
    | c :: rest =>
      if c = '{' then
        match skipGaps rest with
        | '}' :: rest => some (.obj [], rest)
        | rest => members? fuel [] rest
      else if c = '[' then
        match skipGaps rest with
        | ']' :: rest => some (.arr [], rest)
        | rest => items? fuel [] rest
      else if c = '"' then
        (textTail? (rest.length + 1) [] rest).map fun (s, rest) => (.str s, rest)
      else if c = 't' then (expect? ['r', 'u', 'e'] rest).map fun rest => (.bool true, rest)
      else if c = 'f' then (expect? ['a', 'l', 's', 'e'] rest).map fun rest => (.bool false, rest)
      else if c = 'n' then (expect? ['u', 'l', 'l'] rest).map fun rest => (.null, rest)
      else number? (c :: rest)

/-- The items of an array after the opening bracket; `done` holds those read, last first. -/
def items? : Nat → List Json → List Char → Option (Json × List Char)
  | 0, _, _ => none
  | fuel + 1, done, cs =>
    match value? fuel cs with
    | none => none
    | some (item, rest) =>
      match skipGaps rest with
      | ',' :: rest => items? fuel (item :: done) rest
      | ']' :: rest => some (.arr (item :: done).reverse, rest)
      | _ => none

def members? : Nat → List (String × Json) → List Char → Option (Json × List Char)
  | 0, _, _ => none
  | fuel + 1, done, cs =>
    match skipGaps cs with
    | '"' :: rest =>
      match textTail? (rest.length + 1) [] rest with
      | none => none
      | some (name, rest) =>
        match skipGaps rest with
        | ':' :: rest =>
          match value? fuel rest with
          | none => none
          | some (value, rest) =>
            match skipGaps rest with
            | ',' :: rest => members? fuel (addMember done name value) rest
            | '}' :: rest => some (.obj (addMember done name value), rest)
            | _ => none
        | _ => none
    | _ => none

end

end Reader

def parse? (s : String) : Option Json :=
  let cs := s.toList
  match Reader.value? (cs.length + 1) cs with
  | some (value, rest) => if Reader.skipGaps rest = [] then some value else none
  | none => none

end AlertAdmission.Json
