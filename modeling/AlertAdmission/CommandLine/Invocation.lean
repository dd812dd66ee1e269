import AlertAdmission.CommandLine.Arguments
import AlertAdmission.Fault
import AlertAdmission.Simulation

/-!
Calls of the program: three commands with their options, and options for all of them.

An option for all commands may stand before or after the command; the later one counts.
-/

namespace AlertAdmission.CommandLine

inductive OutputFormat where
  | text
  | json
  deriving DecidableEq, Repr

inductive Command where
  | validate
  /-- Check quiet hours at an instant, in a given window or the one of the settings. -/
  | checkQuietHours (now : Option Instant) (severity : Severity)
      (window : Option (String × String)) (timezone : String)
  /-- Simulate alerts of the given number, rule, distance in milliseconds, limit, number of devices
  and severity, from an instant on. -/
  | simulate (events : Nat) (rule : String) (spacingMillis : Nat) (limit : RateLimit)
      (devices : Nat) (severity : Severity) (start : Option Instant)

structure Invocation where
  settingsPath : Option String
  format : OutputFormat
  command : Command

def sharedOptions : List OptionForm :=
  [⟨"config", some 'c', true⟩, ⟨"verbose", some 'v', false⟩, ⟨"format", none, true⟩]

def quietHoursOptions : List OptionForm :=
  ["at", "severity", "start", "end", "timezone"].map fun name => ⟨name, none, true⟩

def simulationOptions : List OptionForm :=
  ["events", "rule", "spacing-ms", "max-alerts", "period", "group-by", "devices", "severity",
    "start-at"].map fun name => ⟨name, none, true⟩

def format? : String → Option OutputFormat
  | "text" => some .text
  | "json" => some .json
  | _ => none

/-- The value of an option, read by a function; a default where it is not given. -/
def valueOr {α : Type} (given : Given) (name : String) (default : α) (read : String → Option α) :
    Option α :=
  match given.lookup name with
  | some value => read value
  | none => some default

def word64? (value : String) : Option Nat :=
  match Text.unsigned? value.toList with
  | some n => if n < UInt64.size then some n else none
  | none => none

def word32? (value : String) : Option UInt32 :=
  match Text.integer? value.toList with
  | some i => if 0 ≤ i ∧ i < UInt32.size then some (UInt32.ofNat i.toNat) else none
  | none => none

def severity? (value : String) : Option Severity := (Severity.parse value).toOption

def instant? (value : String) : Option (Option Instant) := (Rfc3339.read? value).map some

/-- Start and end of a window, which are given both or not at all. -/
def window? (given : Given) : Option (Option (String × String)) :=
  match given.lookup "start", given.lookup "end" with
  | some start, some finish => some (some (start, finish))
  | none, none => some none
  | _, _ => none

def checkQuietHours? (given : Given) : Option Command := do
  let now ← valueOr given "at" none instant?
  let severity ← valueOr given "severity" .info severity?
  let window ← window? given
  let timezone ← valueOr given "timezone" "UTC" some
  return .checkQuietHours now severity window timezone

def simulate? (given : Given) : Option Command := do
  let events ← valueOr given "events" 200 word64?
  let rule ← valueOr given "rule" "simulated-rule" some
  let spacing ← valueOr given "spacing-ms" 250 word64?
  let maxAlerts ← valueOr given "max-alerts" 10 word32?
  let period ← valueOr given "period" 60 word64?
  let devices ← valueOr given "devices" 3 word64?
  let severity ← valueOr given "severity" .warning severity?
  let start ← valueOr given "start-at" none instant?
  let limit : RateLimit := ⟨maxAlerts, UInt64.ofNat period, given.lookup "group-by"⟩
  return .simulate events rule spacing limit devices severity start

def command? : String → Option (List OptionForm × (Given → Option Command))
  | "validate" => some ([], fun _ => some .validate)
  | "check-quiet-hours" => some (quietHoursOptions, checkQuietHours?)
  | "simulate" => some (simulationOptions, simulate?)
  | _ => none

/-- Whether the path of the settings is acceptable wherever it comes from. An empty path in the
environment is refused unless the option is given both before and after the command. -/
def pathsAreValid (ambient : Option String) (before after : Option String) : Bool :=
  before != some "" && after != some "" &&
    (ambient != some "" || (before.isSome && after.isSome))

/-- The call that the words of a command line make. The path of the settings may also come from a
variable of the environment. -/
def Invocation.ofWords? (ambient : Option String) (words : List String) : Option Invocation := do
  let (before, rest) ← readOptions sharedOptions [] words
  let name ← rest.head?
  let (forms, toCommand) ← command? name
  let (after, rest) ← readOptions (sharedOptions ++ forms) [] (rest.drop 1)
  let formatBefore ← valueOr before "format" .text format?
  let format ← valueOr after "format" formatBefore format?
  let command ← toCommand after
  if rest = [] ∧ pathsAreValid ambient (before.lookup "config") (after.lookup "config") then
    some ⟨((after.lookup "config").or (before.lookup "config")).or ambient, format, command⟩
  else none

end AlertAdmission.CommandLine
