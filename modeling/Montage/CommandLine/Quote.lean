/-!
# Printed command lines

A command is printed so that it can be pasted into a shell: the program name
as it is, options as they are, and every other argument between double quotes,
inside which a backslash keeps the shell from reading four characters.
-/

namespace Montage.CommandLine

/-- The characters that a shell reads inside double quotes. -/
def needsBackslash (character : Char) : Bool :=
  character = '\\' || character = '"' || character = '$' || character = '\x60'

/-- Characters with a backslash before each that needs one. -/
def escapeList (characters : List Char) : List Char :=
  characters.flatMap fun character =>
    if needsBackslash character then ['\\', character] else [character]

/-- One argument as it is printed. -/
def quoteList (argument : List Char) : List Char :=
  match argument with
  | '-' :: rest => '-' :: rest
  | _ => '"' :: (escapeList argument ++ ['"'])

def quote (argument : String) : String := String.ofList (quoteList argument.toList)

/-- A program and its arguments as they are printed. -/
def format (program : String) (arguments : List String) : String :=
  String.intercalate " " (program :: arguments.map quote)

end Montage.CommandLine
