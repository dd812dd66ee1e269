import AlertAdmission.CommandLine.Outcome
import AlertAdmission.Json.Reader
import AlertAdmission.Settings.Load
import Std.Time.DateTime.Timestamp

/-!
The program: it reads its settings, its environment and the clock, and shows the outcome of the
call that its command line makes.
-/

namespace AlertAdmission.Program

/-- The names and values of an environment that is written as entries `NAME=VALUE`, each ended by a
character of code zero. -/
def entriesOf (written : String) : List (String × String) :=
  (Text.split (Char.ofNat 0) written.toList).filterMap fun entry =>
    (Text.splitFirst '=' entry).map fun (name, value) => (String.ofList name, String.ofList value)

/-- The names and values of the environment; none where they cannot be listed. -/
def environment : IO (List (String × String)) :=
  try
    let bytes ← IO.FS.readBinFile "/proc/self/environ"
    return ((String.fromUTF8? bytes).map entriesOf).getD []
  catch _ => return []

def document? (path : String) : IO (Option Json) :=
  try
    let text ← IO.FS.readFile path
    return Json.parse? text
  catch _ => return none

def usualPath? (environment : List (String × String)) : Option String :=
  let folder := (environment.lookup "XDG_CONFIG_HOME").or
    ((environment.lookup "HOME").map (· ++ "/.config"))
  folder.map (· ++ "/alertgate/config.json")

def settings (environment : List (String × String)) (path : Option String) :
    IO (Except Fault Settings) := do
  match path with
  | some path =>
    match ← document? path with
    | some document => return Settings.load (.content document) none environment
    | none => return Settings.load .unreadable none environment
  | none =>
    let usual ← match usualPath? environment with
      | some path => document? path
      | none => pure none
    return Settings.load .unspecified usual environment

def outcome (words : List String) : IO CommandLine.Outcome := do
  let environment ← environment
  match CommandLine.Invocation.ofWords? (environment.lookup "ALERTGATE_CONFIG") words with
  | none => return .misused
  | some call =>
    let settings ← settings environment call.settingsPath
    let now ← Std.Time.Timestamp.now
    return call.outcome settings (Instant.ofNanos now.toNanosecondsSinceUnixEpoch.val)

end AlertAdmission.Program

def main (words : List String) : IO UInt32 := do
  let outcome ← AlertAdmission.Program.outcome words
  IO.print outcome.shown
  if outcome.complaint ≠ "" then IO.eprintln outcome.complaint
  return UInt32.ofNat outcome.status
