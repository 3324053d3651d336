/-!
# Commands, and how a command line can stop short

A command line names one of four commands.  It can also come to an end before
any command runs, because the user asked for help or the version, or because
something in it is not understood.
-/

namespace Montage.CommandLine

/-- What the program can be told to do. -/
inductive Command where
  | compile
  | render
  | demo
  | doctor
deriving DecidableEq, Repr

namespace Command

/-- All commands, in the order in which the manual lists them. -/
def all : List Command := [.compile, .render, .demo, .doctor]

def name : Command → String
  | .compile => "compile"
  | .render => "render"
  | .demo => "demo"
  | .doctor => "doctor"

def ofName? (name : String) : Option Command :=
  all.find? fun command => command.name = name

def takesScene : Command → Bool
  | .compile => true
  | .render => true
  | _ => false

end Command

/-- How a command line can come to an end before its command runs.  A page of
the manual is that of a command, or of the whole program. -/
inductive Stop where
  | version
  | help (page : Option Command)
  | manual (page : Option Command) (asked : Bool)
  | unknownOption (name : String) (suggestion : String)
  | unknownCommand (name : String) (suggestion : String)
  | missingArgument (name : String)
  | missingValue (option : String)
deriving DecidableEq, Repr

/-- The version that the manifest of the installation bears.  A manifest that
has been changed, cannot be read or names no version is left out. -/
def programVersion : String := "0.1.0"

namespace Stop

def message : Stop → String
  | .version => programVersion
  | .help _ => "help was shown"
  | .manual _ _ => "help was shown"
  | .unknownOption name suggestion => "error: unknown option '" ++ name ++ "'" ++ suggestion
  | .unknownCommand name suggestion => "error: unknown command '" ++ name ++ "'" ++ suggestion
  | .missingArgument name => "error: missing required argument '" ++ name ++ "'"
  | .missingValue option => "error: option '" ++ option ++ "' argument missing"

/-- The exit status of a stop: only what was asked for is a success. -/
def status : Stop → Nat
  | .version => 0
  | .help _ => 0
  | .manual _ asked => if asked then 0 else 1
  | _ => 1

end Stop

end Montage.CommandLine
