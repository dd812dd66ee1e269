import AlertAdmission.Text

/-!
Paths to settings: a name and the steps that follow it.

A step `.name` goes on to an entry of a table and a step `[index]` to an item of an array, which is
counted from the end where the index is negative. The characters of a name are ASCII letters and
digits, blanks, underscores and hyphens. A text that is no path is a name by itself.
-/

namespace AlertAdmission

/-- A step of a path: to an entry of a table or to an item of an array. -/
inductive PathStep where
  | entry (name : String)
  | item (index : Int)
  deriving DecidableEq, Repr

namespace SettingPath

def isNameLetter (c : Char) : Bool := c.isAlphanum || c = ' ' || c = '_' || c = '-'

/-- A name of at least one character, as a step. -/
def entry? (cs : List Char) : Option (PathStep × List Char) :=
  let name := cs.takeWhile isNameLetter
  if name = [] then none else some (.entry (String.ofList name), cs.drop name.length)

def skipSpaces (cs : List Char) : List Char := cs.dropWhile fun c => c = ' ' || c = '\t'

/-- An index that fits a signed word of 64 bits. -/
def indexOf? (negative : Bool) (n : Nat) : Option Int :=
  if negative then if n ≤ 0x8000000000000000 then some (-n) else none
  else if n < 0x8000000000000000 then some n else none

/-- An index and the bracket after it, as a step. -/
def item? (cs : List Char) : Option (PathStep × List Char) :=
  let (negative, cs) := match skipSpaces cs with
    | '-' :: rest => (true, rest)
    | rest => (false, rest)
  let digits := cs.takeWhile Char.isDigit
  match digits, skipSpaces (cs.drop digits.length) with
  | [], _ => none
  | _, ']' :: rest => (indexOf? negative (Text.natOfDigits digits)).map fun i => (.item i, rest)
  | _, _ => none

def step? : List Char → Option (PathStep × List Char)
  | '.' :: rest => entry? rest
  | '[' :: rest => item? rest
  | _ => none

def steps? : Nat → List Char → Option (List PathStep)
  | _, [] => some []
  | 0, _ => none
  | fuel + 1, cs => do
    let (step, rest) ← step? cs
    let steps ← steps? fuel rest
    some (step :: steps)

def parse? (text : String) : Option (List PathStep) := do
  let (first, rest) ← entry? text.toList
  let steps ← steps? rest.length rest
  some (first :: steps)

def ofText (text : String) : List PathStep := (parse? text).getD [.entry text]

end SettingPath

end AlertAdmission
