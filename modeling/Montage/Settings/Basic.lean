import Montage.Text.Blank

/-!
# Settings

A setting comes from the command line if it is given there, else from an
environment variable, else from its default.  A text that is empty counts as
not given.
-/

namespace Montage

/-- Environment variables, each at most once. -/
abbrev Environment := List (String × String)

namespace Environment

def get? (name : String) : Environment → Option String
  | [] => none
  | (key, value) :: rest => if key = name then some value else get? name rest

def unset (name : String) : Environment → Environment
  | [] => []
  | (key, value) :: rest =>
      if key = name then unset name rest else (key, value) :: unset name rest

def set (name value : String) (environment : Environment) : Environment :=
  (name, value) :: unset name environment

/-- A text up to its first null character, which is where names and values of
variables end. -/
def beforeNull (text : String) : String :=
  String.ofList (text.toList.takeWhile (· ≠ '\x00'))

/-- A variable has a name that is not empty and has no equals sign in it. -/
def isName (name : String) : Bool := name ≠ "" && !name.toList.contains '='

/-- Gives a variable a value.  What is no name names no variable. -/
def assign (name value : String) (environment : Environment) : Environment :=
  if isName (beforeNull name) then environment.set (beforeNull name) (beforeNull value)
  else environment

def clear (name : String) (environment : Environment) : Environment :=
  environment.unset (beforeNull name)

/-- What follows a given beginning and an equals sign. -/
def afterEquals? : List Char → List Char → Option (List Char)
  | [], '=' :: rest => some rest
  | wanted :: beginning, character :: rest =>
      if wanted = character then afterEquals? beginning rest else none
  | _, _ => none

/-- The value that is found under a name.  A variable and its value are kept as
one text with an equals sign between them, so a name with such a sign in it
finds what follows that name there. -/
def find? (name : String) (environment : Environment) : Option String :=
  let sought := (beforeNull name).toList
  let key := String.ofList (sought.takeWhile (· ≠ '='))
  match sought.dropWhile (· ≠ '=') with
  | [] => environment.get? key
  | _ :: beginning =>
      (environment.get? key).bind fun value =>
        (afterEquals? beginning value.toList).map String.ofList

end Environment

/-- What the program goes by. -/
structure Settings where
  program : String
  outputPath : String
  overwrite : Bool
  verbose : Bool
deriving DecidableEq, Repr

/-- The settings that a command line gives. -/
structure GivenSettings where
  program : Option String
  outputPath : Option String
  overwrite : Option Bool
  verbose : Option Bool
deriving DecidableEq, Repr, Inhabited

namespace Settings

def noneGiven : GivenSettings := ⟨none, none, none, none⟩

def defaultProgram : String := "ffmpeg"

def defaultOutputPath : String := "output.mp4"

/-- A text that is there and not empty. -/
def present? (text : Option String) : Option String :=
  text.filter (· ≠ "")

/-- A text setting: given, from the environment, or the default. -/
def textSetting (given ambient : Option String) (standard : String) : String :=
  ((present? given).orElse fun _ => present? ambient).getD standard

def isYes (word : String) : Bool := word = "1" || word = "true" || word = "yes"

/-- A text in lower case.  The words that switch something on have ASCII
letters only, and no other letter has one of these as its lower case. -/
def lowerCase (text : String) : String := String.ofList (text.toList.map Char.toLower)

/-- A switch from the environment.  Blanks around the word and the case of its
letters do not matter; nothing but blanks sets nothing. -/
def switchSetting (ambient : Option String) (standard : Bool) : Bool :=
  let word := lowerCase (Text.trim (ambient.getD ""))
  if word = "" then standard else isYes word

/-- The settings that a command line and the environment come to. -/
def make (given : GivenSettings) (environment : Environment) : Settings :=
  { program :=
      textSetting given.program (environment.get? "FFMPEG_PATH") defaultProgram
    outputPath :=
      textSetting given.outputPath (environment.get? "OUTPUT_PATH") defaultOutputPath
    overwrite :=
      given.overwrite.getD (switchSetting (environment.get? "OVERWRITE") true)
    verbose :=
      given.verbose.getD (switchSetting (environment.get? "VERBOSE") false) }

end Settings

end Montage
