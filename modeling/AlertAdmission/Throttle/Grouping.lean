import AlertAdmission.Json
import AlertAdmission.Text

/-!
The group of an alert: a value found in its payload along a dotted path, as text.

A path leads through nested objects only. Where a limit names no path, or the path leads nowhere,
the alert belongs to the default group.
-/

namespace AlertAdmission.Grouping

def defaultGroup : String := "default"

/-- The value reached by one name after the other, each in an object. -/
def follow : List String → Json → Option Json
  | [], value => some value
  | name :: rest, value => (value.member? name).bind (follow rest)

def names (path : String) : List String := (Text.split '.' path.toList).map String.ofList

def fieldValue (path : String) (data : Json) : Option Json := follow (names path) data

/-- A value as the name of a group: texts as they are, numbers in their shortest form and truth
values as words; all other values have no text. -/
def valueText : Json → String
  | .str s => s
  | .int i => toString i
  | .float x => Decimal.plain x
  | .bool b => if b then "true" else "false"
  | .null => ""
  | .arr _ => ""
  | .obj _ => ""

/-- The group of a payload under an optional path. An empty path counts as none. -/
def groupKey (path : Option String) (data : Json) : String :=
  match path with
  | none => defaultGroup
  | some path =>
    if path = "" then defaultGroup
    else match fieldValue path data with
      | some value => valueText value
      | none => defaultGroup

/-- Following the names of two paths one after the other is following them together. -/
theorem follow_append (first second : List String) (data : Json) :
    follow (first ++ second) data = (follow first data).bind (follow second) := by
  induction first generalizing data with
  | nil => rfl
  | cons name rest ih =>
    simp only [List.cons_append, follow]
    cases data.member? name with
    | none => rfl
    | some value => exact ih value

end AlertAdmission.Grouping
