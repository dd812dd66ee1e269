import AlertAdmission.Decimal.Layout

/-!
JSON values, which carry alert payloads, loose settings and the wire form of every model.

Whole numbers that fit a signed or an unsigned word of 64 bits are kept apart from doubles: `3` and
`3.0` are different values. A lookup takes the first member of a name.
-/

namespace AlertAdmission

inductive Json where
  | null
  | bool (value : Bool)
  | int (value : Int)
  | float (value : Binary64)
  | str (value : String)
  | arr (items : List Json)
  | obj (members : List (String × Json))
  deriving Repr

namespace Json

def member? (name : String) : Json → Option Json
  | .obj members => members.lookup name
  | _ => none

def text? : Json → Option String
  | .str s => some s
  | _ => none

def nonemptyText? : Json → Option String
  | .str s => if s = "" then none else some s
  | _ => none

def bool? : Json → Option Bool
  | .bool b => some b
  | _ => none

def double? : Json → Option Binary64
  | .int i => some (Binary64.ofInt i)
  | .float x => some x
  | _ => none

def isNull : Json → Bool
  | .null => true
  | _ => false

/-- A double as a JSON number; null where it is infinite or no number. -/
def ofDouble (x : Binary64) : Json := if x.isFinite then .float x else .null

def ofOption {α : Type} (encode : α → Json) : Option α → Json
  | none => .null
  | some a => encode a

def leastInt : Int := -0x8000000000000000

def greatestInt : Int := 0xffffffffffffffff

end Json

end AlertAdmission
