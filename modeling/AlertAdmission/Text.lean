/-!
Text as lists of characters: blanks, splitting, decimal digits and padding.

The blank characters are those with the Unicode property White_Space.
-/

namespace AlertAdmission.Text

/-- The twenty-five characters with the Unicode property White_Space. -/
def isBlank (c : Char) : Bool :=
  let n := c.toNat
  (9 ≤ n && n ≤ 13) || n == 0x20 || n == 0x85 || n == 0xA0 || n == 0x1680 ||
    (0x2000 ≤ n && n ≤ 0x200A) || n == 0x2028 || n == 0x2029 || n == 0x202F || n == 0x205F ||
    n == 0x3000

def skipBlanks (cs : List Char) : List Char := cs.dropWhile isBlank

def trim (cs : List Char) : List Char := (skipBlanks (skipBlanks cs).reverse).reverse

/-- The parts of a text between the occurrences of a separator; always at least one part. -/
def split (sep : Char) : List Char → List (List Char)
  | [] => [[]]
  | c :: rest =>
    if c = sep then [] :: split sep rest
    else match split sep rest with
      | [] => [[c]]
      | part :: parts => (c :: part) :: parts

theorem split_ne_nil (sep : Char) (cs : List Char) : split sep cs ≠ [] := by
  cases cs with
  | nil => simp [split]
  | cons c rest =>
    simp only [split]
    split
    · simp
    · split <;> simp

/-- Splitting goes on behind a separator as if the text began there. -/
theorem split_append (sep : Char) (front back : List Char) :
    split sep (front ++ sep :: back) = split sep front ++ split sep back := by
  induction front with
  | nil => simp [split]
  | cons c rest ih =>
    by_cases at_sep : c = sep
    · simp only [List.cons_append, split, if_pos at_sep, ih]
    · obtain ⟨part, parts, first⟩ := List.exists_cons_of_ne_nil (split_ne_nil sep rest)
      simp only [List.cons_append, split, if_neg at_sep, ih, first]

def splitFirst (sep : Char) : List Char → Option (List Char × List Char)
  | [] => none
  | c :: rest =>
    if c = sep then some ([], rest)
    else (splitFirst sep rest).map fun (before, after) => (c :: before, after)

def digitValue (c : Char) : Nat := c.toNat - '0'.toNat

/-- The number a run of decimal digits writes, most significant first. -/
def natOfDigits (cs : List Char) : Nat := cs.foldl (fun n c => 10 * n + digitValue c) 0

def nat? (cs : List Char) : Option Nat :=
  if cs ≠ [] ∧ cs.all Char.isDigit then some (natOfDigits cs) else none

/-- A natural number, with a plus sign allowed in front. -/
def unsigned? : List Char → Option Nat
  | '+' :: rest => nat? rest
  | cs => nat? cs

/-- An integer, with a sign of either kind allowed in front. -/
def integer? : List Char → Option Int
  | '-' :: rest => (nat? rest).map fun n => -(n : Int)
  | cs => (unsigned? cs).map fun n => (n : Int)

def zeroPadded (width n : Nat) : String :=
  let digits := Nat.repr n
  String.ofList (List.replicate (width - digits.length) '0') ++ digits

def alignRight (width : Nat) (s : String) : String :=
  String.ofList (List.replicate (width - s.length) ' ') ++ s

def alignLeft (width : Nat) (s : String) : String :=
  s ++ String.ofList (List.replicate (width - s.length) ' ')

/-- ASCII letters in lower case, all other characters as they are. -/
def lower (s : String) : String := String.ofList (s.toList.map Char.toLower)

/-- ASCII letters in upper case, all other characters as they are. -/
def upper (s : String) : String := String.ofList (s.toList.map Char.toUpper)

end AlertAdmission.Text
