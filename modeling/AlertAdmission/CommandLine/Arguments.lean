import AlertAdmission.Text

/-!
Options on a command line.

An option has a name of letters after two dashes, or a single letter after one. Its value is the
next word, or follows an equals sign; a value that begins with a dash needs that sign. Letters of
options may share a dash, and a value may follow its letter directly. No option is given twice.
-/

namespace AlertAdmission.CommandLine

/-- An option: its name, its letter if it has one, and whether it has a value. -/
structure OptionForm where
  name : String
  letter : Option Char
  hasValue : Bool
  deriving DecidableEq, Repr

/-- The options given, with their values; an option without a value has the empty one. -/
abbrev Given := List (String × String)

inductive Word where
  | plain
  | complete (options : Given)
  /-- Options, and the name of one more that waits for its value. -/
  | waiting (options : Given) (name : String)
  /-- An option that does not exist, or has a value it should not have. -/
  | unknown
  deriving DecidableEq, Repr

def afterEquals : List Char → List Char
  | '=' :: rest => rest
  | cs => cs

def lettersWord (forms : List OptionForm) (given : Given) : List Char → Word
  | [] => .complete given
  | c :: rest =>
    match forms.find? fun form => form.letter == some c with
    | none => .unknown
    | some form =>
      if form.hasValue then
        if rest = [] then .waiting given form.name
        else .complete (given ++ [(form.name, String.ofList (afterEquals rest))])
      else lettersWord forms (given ++ [(form.name, "")]) rest

/-- The name after two dashes, with or without a value. -/
def nameWord (forms : List OptionForm) (cs : List Char) : Word :=
  let (name, value) := match Text.splitFirst '=' cs with
    | some (name, value) => (String.ofList name, some (String.ofList value))
    | none => (String.ofList cs, none)
  match forms.find? fun form => form.name == name with
  | none => .unknown
  | some form =>
    match form.hasValue, value with
    | true, some value => .complete [(form.name, value)]
    | true, none => .waiting [] form.name
    | false, none => .complete [(form.name, "")]
    | false, some _ => .unknown

def wordOf (forms : List OptionForm) (word : String) : Word :=
  match word.toList with
  | '-' :: '-' :: cs => nameWord forms cs
  | ['-'] => .plain
  | '-' :: cs => lettersWord forms [] cs
  | _ => .plain

def isValue (word : String) : Bool := word == "-" || !"-".toList.isPrefixOf word.toList

/-- The options given with more of them, unless one is given twice. -/
def addOptions (given : Given) : Given → Option Given
  | [] => some given
  | (name, value) :: rest =>
    if (given.lookup name).isSome then none else addOptions (given ++ [(name, value)]) rest

/-- The options at the front of a command line and the words from the first plain one on. Nothing
may follow two dashes that stand alone. -/
def readOptions (forms : List OptionForm) (given : Given) :
    List String → Option (Given × List String)
  | [] => some (given, [])
  | word :: rest =>
    if word = "--" then (if rest = [] then some (given, []) else none)
    else match wordOf forms word with
      | .plain => some (given, word :: rest)
      | .unknown => none
      | .complete options =>
        match addOptions given options with
        | some given => readOptions forms given rest
        | none => none
      | .waiting options name =>
        match rest with
        | [] => none
        | value :: rest =>
          if isValue value then
            match addOptions given (options ++ [(name, value)]) with
            | some given => readOptions forms given rest
            | none => none
          else none

end AlertAdmission.CommandLine
