import AlertAdmission.Json

/-!
Writing JSON documents: on one line, or indented by two blanks a level. Members keep their order.
-/

namespace AlertAdmission.Json

def hexDigit (n : Nat) : Char := if n < 10 then Char.ofNat (48 + n) else Char.ofNat (87 + n)

/-- A character inside quotes: quotes, backslashes and control characters are escaped. -/
def quotedChar (c : Char) : List Char :=
  if c = '"' then ['\\', '"']
  else if c = '\\' then ['\\', '\\']
  else if c = '\n' then ['\\', 'n']
  else if c = '\r' then ['\\', 'r']
  else if c = '\t' then ['\\', 't']
  else if c.toNat = 8 then ['\\', 'b']
  else if c.toNat = 12 then ['\\', 'f']
  else if c.toNat < 0x20 then
    ['\\', 'u', '0', '0', hexDigit (c.toNat / 16), hexDigit (c.toNat % 16)]
  else [c]

def quoted (s : String) : String :=
  "\"" ++ String.ofList (s.toList.flatMap quotedChar) ++ "\""

/-- Indentation of a nesting depth on a new line; nothing in a document on one line. -/
def newLine (indented : Bool) (depth : Nat) : String :=
  if indented then "\n" ++ String.ofList (List.replicate (2 * depth) ' ') else ""

mutual

def render (indented : Bool) (depth : Nat) : Json → String
  | .null => "null"
  | .bool b => if b then "true" else "false"
  | .int i => toString i
  | .float x => Decimal.document x
  | .str s => quoted s
  | .arr [] => "[]"
  | .arr (item :: items) =>
    "[" ++ newLine indented (depth + 1) ++ render indented (depth + 1) item ++
      renderItems indented (depth + 1) items ++ newLine indented depth ++ "]"
  | .obj [] => "\x7b\x7d"
  | .obj ((name, value) :: members) =>
    "\x7b" ++ newLine indented (depth + 1) ++ quoted name ++ (if indented then ": " else ":") ++
      render indented (depth + 1) value ++ renderMembers indented (depth + 1) members ++
      newLine indented depth ++ "\x7d"

/-- The items after the first, each with the comma before it. -/
def renderItems (indented : Bool) (depth : Nat) : List Json → String
  | [] => ""
  | item :: items =>
    "," ++ newLine indented depth ++ render indented depth item ++ renderItems indented depth items

/-- The members after the first, each with the comma before it. -/
def renderMembers (indented : Bool) (depth : Nat) : List (String × Json) → String
  | [] => ""
  | (name, value) :: members =>
    "," ++ newLine indented depth ++ quoted name ++ (if indented then ": " else ":") ++
      render indented depth value ++ renderMembers indented depth members

end

def compact (value : Json) : String := render false 0 value

def pretty (value : Json) : String := render true 0 value

end AlertAdmission.Json
