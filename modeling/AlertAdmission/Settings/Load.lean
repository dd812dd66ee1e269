import AlertAdmission.Settings
import AlertAdmission.Settings.Source

/-!
Settings from their sources: defaults, a file, and the environment.

Values are read with some leniency: numbers, truth values and words for them stand for each other.
Null is refused except where a setting may be absent, and what is unknown is ignored.
-/

namespace AlertAdmission.Source

/-- Words that say yes or no, in any case. -/
def word? (text : String) : Option Bool :=
  match Text.lower text with
  | "true" | "on" | "yes" => some true
  | "false" | "off" | "no" => some false
  | _ => none

def greatestWord : Nat := UInt64.size - 1

def word64? : Json → Option UInt64
  | .int i => if 0 ≤ i then some (UInt64.ofNat i.toNat) else none
  | .bool b => some (if b then 1 else 0)
  | .float x => some (UInt64.ofNat (x.roundToNat greatestWord))
  | .str s =>
    match word? s with
    | some b => some (if b then 1 else 0)
    | none =>
      match Text.unsigned? s.toList with
      | some n => if n ≤ greatestWord then some (UInt64.ofNat n) else none
      | none => none
  | _ => none

def double? : Json → Option Binary64
  | .int i => some (Binary64.ofInt i)
  | .bool b => some (Binary64.ofNat (if b then 1 else 0))
  | .float x => some x
  | .str s =>
    match word? s with
    | some b => some (Binary64.ofNat (if b then 1 else 0))
    | none => Decimal.double? s.toList
  | _ => none

def flag? : Json → Option Bool
  | .bool b => some b
  | .int i => some (i != 0)
  | .float x => some !x.isZero
  | .str s => if s = "1" then some true else if s = "0" then some false else word? s
  | _ => none

def text? : Json → Option String
  | .str s => some s
  | .bool b => some (if b then "true" else "false")
  | .int i => some (toString i)
  | .float x => some (Decimal.plain x)
  | _ => none

def duration? (value : Json) : Option Duration := (text? value).bind Duration.read?

def doubles? : Json → Option (List Binary64)
  | .arr items => items.mapM double?
  | _ => none

def absent? {α : Type} (read : Json → Option α) : Json → Option (Option α)
  | .null => some none
  | value => (read value).map some

/-- A section of settings: the entries of a table, or the items of an array in the order in which
the settings are declared. -/
inductive Section where
  | named (entries : List (String × Json))
  | listed (items : List Json)

def Section.ofJson? : Json → Option Section
  | .obj entries => some (.named entries)
  | .arr items => some (.listed items)
  | _ => none

/-- What a section has for a setting, given by its place in the declaration and its name. Items
after the last declared setting are ignored, as unknown entries are. -/
def Section.value? (s : Section) (place : Nat) (name : String) : Option Json :=
  match s with
  | .named entries => entries.lookup name
  | .listed items => items[place]?

/-- A setting of a section, or a default where the section has nothing for it. -/
def valueOr {α : Type} (s : Section) (place : Nat) (name : String) (default : α)
    (read : Json → Option α) : Option α :=
  match s.value? place name with
  | some value => read value
  | none => some default

def inSection? {α : Type} (read : Section → Option α) (value : Json) : Option α :=
  (Section.ofJson? value).bind read

def storm? (s : Section) : Option StormConfig := do
  let standard := StormConfig.standard
  let threshold ← valueOr s 0 "threshold" standard.threshold word64?
  let windowSeconds ← valueOr s 1 "window_seconds" standard.windowSeconds word64?
  let cooldownSeconds ← valueOr s 2 "cooldown_seconds" standard.cooldownSeconds word64?
  return ⟨threshold, windowSeconds, cooldownSeconds⟩

def queue? (s : Section) : Option QueueSettings := do
  let standard := QueueSettings.standard
  let maxQueueSize ← valueOr s 0 "max_queue_size" standard.maxQueueSize word64?
  let tickInterval ← valueOr s 1 "tick_interval" standard.tickInterval duration?
  let deliveryTimeout ← valueOr s 2 "delivery_timeout" standard.deliveryTimeout duration?
  return ⟨maxQueueSize, tickInterval, deliveryTimeout⟩

def quietHours? (s : Section) : Option QuietHoursSettings := do
  let startTime ← valueOr s 0 "start_time" none (absent? text?)
  let endTime ← valueOr s 1 "end_time" none (absent? text?)
  let timezone ← valueOr s 2 "timezone" none (absent? text?)
  let bypassCritical ← valueOr s 3 "bypass_critical" none (absent? flag?)
  let daysOfWeek ← valueOr s 4 "days_of_week" none (absent? doubles?)
  return ⟨startTime, endTime, timezone, bypassCritical, daysOfWeek⟩

def logging? (s : Section) : Option LoggingSettings := do
  let level ← valueOr s 0 "level" LoggingSettings.standard.level text?
  let format ← valueOr s 1 "format" LoggingSettings.standard.format text?
  return ⟨level, format⟩

def settings? (s : Section) : Option Settings := do
  let storm ← valueOr s 0 "storm" StormConfig.standard (inSection? storm?)
  let queue ← valueOr s 1 "queue" QueueSettings.standard (inSection? queue?)
  let quietHours ← valueOr s 2 "quiet_hours" none (absent? (inSection? quietHours?))
  let logging ← valueOr s 3 "logging" LoggingSettings.standard (inSection? logging?)
  return ⟨storm, queue, quietHours, logging⟩

end AlertAdmission.Source

namespace AlertAdmission

/-- The file that was asked for: none, one that cannot be read, or one with this content. -/
inductive SettingsFile where
  | unspecified
  | unreadable
  | content (document : Json)

namespace Settings

/-- The entries of the file. The file at the usual place counts only where none was asked for. -/
def fileEntries (file : SettingsFile) (usual : Option Json) :
    Except Fault (List (String × Json)) :=
  let entries (document : Json) : Except Fault (List (String × Json)) :=
    match Source.ofFile? document with
    | some entries => .ok entries
    | none => .error (.configuration "the root of the file is no table")
  match file, usual with
  | .unreadable, _ => .error (.configuration "the file cannot be read")
  | .content document, _ => entries document
  | .unspecified, some document => entries document
  | .unspecified, none => .ok []

/-- The settings of a file and the environment, which overrides it. -/
def load (file : SettingsFile) (usual : Option Json) (environment : List (String × String)) :
    Except Fault Settings := do
  let entries ← fileEntries file usual
  let tree := Source.overlay (Source.overlay (.obj []) entries) (Source.ofEnvironment environment)
  match Source.inSection? Source.settings? tree with
  | some settings => .ok settings
  | none => .error (.configuration "a setting does not have the form it should have")

end Settings

end AlertAdmission
