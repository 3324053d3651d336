import Montage.CommandLine.Manual
import Montage.CommandLine.Suggestion

/-!
# Understanding a command line

The program first takes out its own switches.  The first operand names the
command, which reads the words that were set apart by its own switches.

The conventions for words, pages and suggestions are those of a library that the
program is built on.  Results about runs need no more of them than the answer of
`understand`: what a run does then is said by `Program.run_of_understood` and
`Program.run_of_stop`.
-/

namespace Montage.CommandLine

/-- A command line that has been understood: a command, the scene that it is
given, and what its switches ask for. -/
structure Invocation where
  command : Command
  scene : String
  choices : Choices
deriving DecidableEq, Repr

def asksForHelp (words : List String) : Bool :=
  words.any fun word => word = "-h" || word = "--help"

/-- The stop at an unknown switch.  Only names are compared with the names that
the command and the program know. -/
def unknownOption (known : List Switch) (word : String) : Stop :=
  let isName : Bool :=
    match word.toList with
    | '-' :: '-' :: _ => true
    | _ => false
  .unknownOption word
    (if isName then suggestion word (known.map Switch.long ++ ["--help"]) else "")

def unknownCommand (word : String) : Stop :=
  .unknownCommand word (suggestion word (Command.all.map Command.name ++ ["help"]))

/-- Reads the words for a command: operands that the program found, and words
that it set apart. -/
def readCommand (command : Command) (reading : Reading) (operands : List String) :
    Except Stop Invocation := do
  let further ← read command.switches reading.choices reading.unknown
  if asksForHelp further.unknown then throw (.help (some command))
  match further.unknown with
  | word :: _ => throw (unknownOption (command.switches ++ Switch.ofProgram) word)
  | [] =>
      if command.takesScene then
        match operands ++ further.operands with
        | [] => throw (.missingArgument "scene")
        | scene :: _ => return ⟨command, scene, further.choices⟩
      else return ⟨command, "", further.choices⟩

/-- The page that `help` shows for the words after it.  A command that is not
known is not a page that was asked for. -/
def helpStop : List String → Stop
  | [] => .manual none true
  | word :: _ =>
      if word = "" then .manual none true
      else
        match Command.ofName? word with
        | some command => .manual (some command) true
        | none => .manual none false

/-- What a command line, without the name of the program, asks for. -/
def understand (words : List String) : Except Stop Invocation := do
  let reading ← read Switch.ofProgram .none words
  match reading.operands with
  | [] =>
      match reading.unknown with
      | [] => throw (.manual none false)
      | word :: _ =>
          if asksForHelp reading.unknown then throw (.help none)
          else throw (unknownOption Switch.ofProgram word)
  | word :: operands =>
      match Command.ofName? word with
      | some command => readCommand command reading operands
      | none =>
          if word = "help" then throw (helpStop operands)
          else if asksForHelp reading.unknown then throw (.help none)
          else throw (unknownCommand word)

end Montage.CommandLine
