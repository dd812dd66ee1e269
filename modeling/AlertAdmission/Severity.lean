import AlertAdmission.Text

/-!
How urgent an alert is. A severity has one name, in capital letters; reading it from text ignores
the case of ASCII letters and blanks around it.
-/

namespace AlertAdmission

inductive Severity where
  | critical
  | error
  | warning
  | info
  deriving DecidableEq, Repr

namespace Severity

/-- All severities, the most urgent first. -/
def all : List Severity := [.critical, .error, .warning, .info]

/-- The severity of what states none: it is information. -/
def standard : Severity := .info

instance : Inhabited Severity := ⟨standard⟩

def name : Severity → String
  | .critical => "CRITICAL"
  | .error => "ERROR"
  | .warning => "WARNING"
  | .info => "INFO"

def ofName? (name : String) : Option Severity :=
  match name with
  | "CRITICAL" => some .critical
  | "ERROR" => some .error
  | "WARNING" => some .warning
  | "INFO" => some .info
  | _ => none

/-- A text as it is compared with the names: without blanks around it, in capital letters. -/
def normalized (text : String) : String :=
  Text.upper (String.ofList (Text.trim text.toList))

theorem ofName?_name (s : Severity) : ofName? s.name = some s := by cases s <;> rfl

end Severity

end AlertAdmission
