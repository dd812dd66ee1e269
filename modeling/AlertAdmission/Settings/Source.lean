import AlertAdmission.Decimal.Layout
import AlertAdmission.Json
import AlertAdmission.Settings.Path
import AlertAdmission.Table

/-!
Sources of settings and how later ones override earlier ones.

A source is a tree of tables. Names are compared without regard to case, and at the root a name may
be a path. A table put over a table is merged into it; in all other cases the later value stands,
and whatever is in the way of a path gives way to the table or array that the path needs.
-/

namespace AlertAdmission.Source

/-- A letter in lower case. Beside the ASCII letters this covers the Kelvin sign, the only other
character whose lower case is an ASCII letter by itself. -/
def lowerLetter (c : Char) : Char := if c.toNat = 0x212A then 'k' else c.toLower

def lowerName (name : String) : String := String.ofList (name.toList.map lowerLetter)

/-- A table with a value at a name; what is no table is replaced by one. -/
def withMember (target : Json) (name : String) (change : Option Json → Json) : Json :=
  match target with
  | .obj members =>
    if (members.lookup name).isSome then
      .obj (members.map fun (other, old) =>
        if other = name then (other, change (some old)) else (other, old))
    else .obj (members ++ [(name, change none)])
  | _ => .obj [(name, change none)]

mutual

/-- A value put at a name: a table is merged with what is there, all else replaces it. -/
def put (target : Json) (name : String) : Json → Json
  | .obj members => withMember target name fun old => putAll (old.getD (.obj [])) members
  | value => withMember target name fun _ => value

def putAll (target : Json) : List (String × Json) → Json
  | [] => target
  | (name, value) :: rest => putAll (put target name value) rest

end

/-- The place of an index in an array of a length; there is none before the start. -/
def place? (length : Nat) (index : Int) : Option Nat :=
  if 0 ≤ index then some index.toNat
  else if index.natAbs ≤ length then some (length - index.natAbs) else none

/-- An array with an item changed, lengthened by nulls up to it; what is no array is replaced by
one. -/
def withItem (target : Json) (index : Int) (change : Json → Json) : Json :=
  let items := match target with
    | .arr items => items
    | _ => []
  match place? items.length index with
  | some place =>
    .arr ((items ++ List.replicate (place + 1 - items.length) .null).modify place change)
  | none => .arr items

def putAt (target : Json) : List PathStep → Json → Json
  | [], _ => target
  | [.entry name], value => put target name value
  | [.item index], value => withItem target index fun _ => value
  | .entry name :: rest, value =>
    withMember target name fun old => putAt (old.getD .null) rest value
  | .item index :: rest, value => withItem target index fun old => putAt old rest value

def overlay (target : Json) (entries : List (String × Json)) : Json :=
  entries.foldl (fun target (name, value) => putAt target (SettingPath.ofText name) value) target

/-- A whole number; one that does not fit a signed word of 64 bits is a double. -/
def ofInt (i : Int) : Json :=
  if -0x8000000000000000 ≤ i ∧ i < 0x8000000000000000 then .int i else .float (Binary64.ofInt i)

mutual

/-- A document as settings: names in lower case, and whole numbers beyond 63 bits as doubles. -/
def ofDocument : Json → Json
  | .int i => ofInt i
  | .arr items => .arr (ofItems items)
  | .obj members => .obj (ofMembers members)
  | value => value

def ofItems : List Json → List Json
  | [] => []
  | item :: rest => ofDocument item :: ofItems rest

def ofMembers : List (String × Json) → List (String × Json)
  | [] => []
  | (name, value) :: rest => (lowerName name, ofDocument value) :: ofMembers rest

end

def ofFile? (document : Json) : Option (List (String × Json)) :=
  match ofDocument document with
  | .obj entries => some entries
  | _ => none

/-- How the names of environment entries with settings begin, in any case. -/
def marker : String := "alertgate__"

def pointed : List Char → List Char
  | '_' :: '_' :: rest => '.' :: pointed rest
  | c :: rest => c :: pointed rest
  | [] => []

/-- The value of a variable: a truth value, a whole number of 64 bits, a double, or else text. -/
def ofText (text : String) : Json :=
  let cs := text.toList
  if Text.lower text = "true" then .bool true
  else if Text.lower text = "false" then .bool false
  else match Text.integer? cs with
    | some i => ofInt i
    | none =>
      match Decimal.double? cs with
      | some x => .float x
      | none => .str text

/-- The entry of an environment variable, if it is a setting. -/
def ofVariable? (name value : String) : Option (String × Json) :=
  let cs := (lowerName name).toList
  if marker.toList.isPrefixOf cs
  then some (String.ofList (pointed (cs.drop marker.length)), ofText value) else none

/-- The entries of the environment. Its variables are taken in order of their names, and of those
that name one entry in different cases the last one stands. -/
def ofEnvironment (environment : List (String × String)) : List (String × Json) :=
  let sorted : Table String :=
    environment.foldl (fun t (name, value) => t.insert name value) Table.empty
  let entries : Table Json :=
    (sorted.toList.filterMap fun (name, value) => ofVariable? name value).foldl
      (fun t (name, value) => t.insert name value) Table.empty
  entries.toList

end AlertAdmission.Source
