import AlertAdmission.Json
import AlertAdmission.Severity
import AlertAdmission.Time.Duration
import AlertAdmission.Time.Rfc3339

/-!
Codecs: how a type of values is written as JSON and read from it.

A record is written as an object with the names of its fields. It is read from such an object, in
which other members are ignored, or from an array of its fields in the order of their declaration.
A codec is stable when what it reads is also read from what it writes.
-/

namespace AlertAdmission

/-- A form of the values of a type in JSON. -/
structure Codec (α : Type) where
  encode : α → Json
  decode : Json → Option α

namespace Codec

/-- Whether the values with a property are read back from their written form whenever they can be
read at all. -/
def StableOn {α : Type} (c : Codec α) (good : α → Prop) : Prop :=
  ∀ v x, c.decode v = some x → good x → c.decode (c.encode x) = some x

/-! ### Single values -/

def any : Codec Json := ⟨id, some⟩

def text : Codec String := ⟨.str, Json.text?⟩

def flag : Codec Bool := ⟨.bool, Json.bool?⟩

def natBelow? (limit : Nat) : Json → Option Nat
  | .int (.ofNat n) => if n < limit then some n else none
  | _ => none

def count : Codec Nat := ⟨fun n => .int n, natBelow? UInt64.size⟩

def word64 : Codec UInt64 :=
  ⟨fun n => .int n.toNat, fun v => (natBelow? UInt64.size v).map UInt64.ofNat⟩

def word32 : Codec UInt32 :=
  ⟨fun n => .int n.toNat, fun v => (natBelow? UInt32.size v).map UInt32.ofNat⟩

def word8 : Codec UInt8 :=
  ⟨fun n => .int n.toNat, fun v => (natBelow? UInt8.size v).map UInt8.ofNat⟩

/-- A double, read also from whole numbers. -/
def double : Codec Binary64 := ⟨Json.ofDouble, Json.double?⟩

/-- The name of a case, given as text or as the only member of an object, which is null then. -/
def caseName? : Json → Option String
  | .str name => some name
  | .obj [(name, .null)] => some name
  | _ => none

def severity : Codec Severity :=
  ⟨fun s => .str s.name, fun v => (caseName? v).bind Severity.ofName?⟩

def instant : Codec Instant :=
  ⟨fun t => .str (Rfc3339.write t), fun v => v.text?.bind Rfc3339.read?⟩

def duration : Codec Duration :=
  ⟨fun d => .str d.write, fun v => v.text?.bind Duration.read?⟩

/-- A value that may be absent, which is then null. -/
def optional {α : Type} (c : Codec α) : Codec (Option α) where
  encode := Json.ofOption c.encode
  decode v := match v with
    | .null => some none
    | v => (c.decode v).map some

def decodeAll {α : Type} (decode : Json → Option α) : List Json → Option (List α)
  | [] => some []
  | v :: rest => do
    let a ← decode v
    let as ← decodeAll decode rest
    some (a :: as)

def list {α : Type} (c : Codec α) : Codec (List α) where
  encode values := .arr (values.map c.encode)
  decode v := match v with
    | .arr items => decodeAll c.decode items
    | _ => none

/-! ### Records -/

/-- Where the fields of a record are read from: the members of an object, or the items of an array
that are still to be read. -/
inductive Fields where
  | named (members : List (String × Json))
  | listed (items : List Json)

/-- Reads fields of a record in the order of their declaration. -/
abbrev FieldReader := StateT Fields Option

def nextField (name : String) : FieldReader (Option Json) := fun fields =>
  match fields with
  | .named members => some (members.lookup name, fields)
  | .listed [] => some (none, fields)
  | .listed (item :: rest) => some (some item, .listed rest)

/-- The value of a field, or what stands for a missing one. -/
def fieldOr {α : Type} (name : String) (c : Codec α) (missing : FieldReader α) : FieldReader α := do
  match ← nextField name with
  | some v => StateT.lift (c.decode v)
  | none => missing

def required {α : Type} (name : String) (c : Codec α) : FieldReader α :=
  fieldOr name c (StateT.lift none)

def defaulted {α : Type} (name : String) (c : Codec α) (default : α) : FieldReader α :=
  fieldOr name c (pure default)

/-- A field that may be left out of an object, though not of an array. -/
def omissible {α : Type} (name : String) (c : Codec α) : FieldReader (Option α) :=
  fieldOr name c.optional fun fields =>
    match fields with
    | .named _ => some (none, fields)
    | .listed _ => none

/-- The record of an object or an array; an array has to hold nothing after the last field. -/
def decodeRecord {α : Type} (fields : FieldReader α) : Json → Option α
  | .obj members => (fields.run (.named members)).map Prod.fst
  | .arr items =>
    match fields.run (.listed items) with
    | some (a, .listed []) => some a
    | _ => none
  | _ => none

/-- A record, given by the members it is written with and the fields it is read from. -/
def record {α : Type} (members : α → List (String × Json)) (fields : FieldReader α) : Codec α :=
  ⟨fun a => .obj (members a), decodeRecord fields⟩

end Codec

end AlertAdmission
