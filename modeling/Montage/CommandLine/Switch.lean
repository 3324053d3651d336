import Montage.CommandLine.Stop
import Montage.Settings.Basic

/-!
# Command-line switches

A switch is a word that begins with a dash.  The switches of the program are
known before and after the name of a command, those of a command only to it.
Reading a list of words takes out the switches that are known and keeps the
rest in order: operands as long as only these have been met, and everything
from the first unknown switch on apart.
-/

namespace Montage.CommandLine

/-- The switches that are known somewhere. -/
inductive Switch where
  | version
  | verbose
  | program
  | output
  | overwrite
  | keepExisting
  | json
  | logo
deriving DecidableEq, Repr

namespace Switch

/-- The letter of a switch, if it has one. -/
def letter? : Switch → Option Char
  | .version => some 'V'
  | .verbose => some 'v'
  | .output => some 'o'
  | _ => none

/-- The name of a switch, after two dashes. -/
def name : Switch → String
  | .version => "version"
  | .verbose => "verbose"
  | .program => "ffmpeg-path"
  | .output => "output"
  | .overwrite => "overwrite"
  | .keepExisting => "no-overwrite"
  | .json => "json"
  | .logo => "logo"

def takesPath : Switch → Bool
  | .program => true
  | .output => true
  | _ => false

def description : Switch → String
  | .version => "output the version number"
  | .verbose => "Verbose logging"
  | .program => "FFmpeg binary (default: env FFMPEG_PATH or ffmpeg on PATH)"
  | .output => "Output video path (default: env OUTPUT_PATH or output.mp4)"
  | .overwrite => "Pass -y so FFmpeg replaces an existing output (default)"
  | .keepExisting => "Let FFmpeg refuse to replace an existing output"
  | .json => "Print the argument list as a JSON array"
  | .logo => "Show the logo on both panels"

def long (switch : Switch) : String := "--" ++ switch.name

/-- A switch as manuals and messages show it. -/
def flags (switch : Switch) : String :=
  (match switch.letter? with
    | some letter => "-" ++ String.singleton letter ++ ", "
    | none => "") ++
    switch.long ++ if switch.takesPath then " <path>" else ""

def matchesWord (switch : Switch) (word : List Char) : Bool :=
  word = switch.long.toList ||
    match switch.letter? with
    | some letter => word = ['-', letter]
    | none => false

def ofProgram : List Switch := [.version, .verbose, .program]

end Switch

/-- What the switches of a command line ask for.  The last word on a matter
counts. -/
structure Choices where
  verbose : Bool
  program : Option String
  output : Option String
  overwrite : Option Bool
  json : Bool
  logo : Bool
deriving DecidableEq, Repr

namespace Choices

def none : Choices := ⟨false, Option.none, Option.none, Option.none, false, false⟩

/-- What is asked for after one more switch, given the path it takes. -/
def add (choices : Choices) (path : String) : Switch → Choices
  | .version => choices
  | .verbose => { choices with verbose := true }
  | .program => { choices with program := some path }
  | .output => { choices with output := some path }
  | .overwrite => { choices with overwrite := some true }
  | .keepExisting => { choices with overwrite := some false }
  | .json => { choices with json := true }
  | .logo => { choices with logo := true }

def given (choices : Choices) : GivenSettings :=
  { program := choices.program
    outputPath := choices.output
    overwrite := choices.overwrite
    verbose := if choices.verbose then some true else Option.none }

end Choices

/-- How far a list of words has been read. -/
structure Reading where
  choices : Choices
  operands : List String
  unknown : List String
deriving DecidableEq, Repr

namespace Reading

/-- Keeps a word that is no known switch.  Once a word has been set apart, so
are all later ones. -/
def keep (reading : Reading) (word : String) : Reading :=
  let looksLikeSwitch :=
    match word.toList with
    | '-' :: _ :: _ => true
    | _ => false
  if looksLikeSwitch || !reading.unknown.isEmpty then
    { reading with unknown := reading.unknown ++ [word] }
  else { reading with operands := reading.operands ++ [word] }

/-- Keeps everything after a word that ends the switches.  That word is kept
too if words have been set apart, for whoever reads these next. -/
def finish (reading : Reading) (rest : List String) : Reading :=
  if reading.unknown.isEmpty then { reading with operands := reading.operands ++ rest }
  else { reading with unknown := reading.unknown ++ "--" :: rest }

end Reading

/-- What a word says to a reader that knows some switches. -/
inductive Word where
  | plain
  | ending
  | switch (found : Switch)
  | withPath (found : Switch) (path : String)
  | cluster (found : Switch) (rest : String)
deriving DecidableEq, Repr

/-- A word of one dash and more letters than one, the first of which is that of
a known switch: what follows is its path, or more letters. -/
def classifyCluster? (known : List Switch) : List Char → Option Word
  | '-' :: letter :: next :: rest =>
      if letter = '-' then none
      else
        (known.find? fun switch => switch.matchesWord ['-', letter]).map fun found =>
          if found.takesPath then .withPath found (String.ofList (next :: rest))
          else .cluster found (String.ofList ('-' :: next :: rest))
  | _ => none

/-- A word of a known name that takes a path, an equals sign and the path. -/
def classifyAssignment? (known : List Switch) (word : List Char) : Option Word :=
  let name := word.takeWhile (· ≠ '=')
  match word.dropWhile (· ≠ '=') with
  | [] => none
  | _ :: path =>
      (known.find? fun switch => switch.takesPath && name = switch.long.toList).map
        fun found => .withPath found (String.ofList path)

/-- Sorts a word.  A known switch as a whole comes before a cluster of letters,
that before a name with a path in the same word. -/
def classify (known : List Switch) (word : String) : Word :=
  let characters := word.toList
  if word = "--" then .ending
  else
    match known.find? fun switch => switch.matchesWord characters with
    | some found => .switch found
    | none =>
        match classifyCluster? known characters with
        | some found => found
        | none => (classifyAssignment? known characters).getD .plain

/-- Reads words.  A cluster of letters is read letter by letter, what is left
of it being a word again, so the fuel counts characters. -/
def readWords (known : List Switch) : Nat → Reading → List String → Except Stop Reading
  | 0, reading, _ => .ok reading
  | _ + 1, reading, [] => .ok reading
  | fuel + 1, reading, word :: rest =>
      match classify known word with
      | .plain => readWords known fuel (reading.keep word) rest
      | .ending => .ok (reading.finish rest)
      | .switch .version => .error .version
      | .switch found =>
          if found.takesPath then
            match rest with
            | [] => .error (.missingValue found.flags)
            | path :: later =>
                readWords known fuel
                  { reading with choices := reading.choices.add path found } later
          else
            readWords known fuel { reading with choices := reading.choices.add "" found } rest
      | .withPath found path =>
          readWords known fuel { reading with choices := reading.choices.add path found } rest
      | .cluster .version _ => .error .version
      | .cluster found more =>
          readWords known fuel { reading with choices := reading.choices.add "" found }
            (more :: rest)

/-- Reads words by the switches that are known, on top of earlier choices. -/
def read (known : List Switch) (choices : Choices) (words : List String) :
    Except Stop Reading :=
  readWords known ((String.join words).length + words.length + 1) ⟨choices, [], []⟩ words

end Montage.CommandLine
