import Montage.CommandLine.Switch

/-!
# The manual

Each page has a line of usage, a sentence, and lists of what can be written.
The texts of a list are aligned and broken so that no line is longer than the
page is wide.
-/

namespace Montage.CommandLine

/-- The name under which the program is called. -/
def programName : String := "framestack"

namespace Command

def description : Command → String
  | .compile => "Print the FFmpeg command for a scene file"
  | .render => "Compile a scene file and run FFmpeg"
  | .demo => "Print the FFmpeg command for the built-in side-by-side keynote scene"
  | .doctor => "Check Node.js and FFmpeg prerequisites"

/-- The switches that a command knows besides those of the program. -/
def switches : Command → List Switch
  | .compile => [.output, .overwrite, .keepExisting, .json]
  | .render => [.output, .overwrite, .keepExisting]
  | .demo => [.logo, .output, .json]
  | .doctor => []

/-- A command as the manual of the program lists it. -/
def term (command : Command) : String :=
  command.name ++ (if command.switches.isEmpty then "" else " [options]") ++
    if command.takesScene then " <scene>" else ""

end Command

namespace Manual

structure Entry where
  term : String
  text : String
deriving DecidableEq, Repr

/-- A titled list. -/
structure Section where
  title : String
  entries : List Entry
deriving DecidableEq, Repr

/-- A page of the manual. -/
structure Page where
  usage : String
  description : String
  sections : List Section
deriving DecidableEq, Repr

/-- No line is this long. -/
def pageWidth : Nat := 80

def spaces (count : Nat) : String := String.ofList (List.replicate count ' ')

/-- Sets words into lines of at most the given width.  `line` is what the
current line holds. -/
def fill (width : Nat) (line : String) : List String → List String
  | [] => [line]
  | word :: rest =>
      if line.length + 1 + word.length ≤ width then fill width (line ++ " " ++ word) rest
      else line :: fill width word rest

/-- A text broken into lines of at most the given width. -/
def lines (width : Nat) (text : String) : List String :=
  match (text.toList.splitOn ' ').map String.ofList with
  | [] => []
  | first :: rest => fill width first rest

/-- The lines of an entry whose list sets terms to a given width. -/
def Entry.render (width : Nat) (entry : Entry) : String :=
  let gap := 2
  let column := gap + width + gap
  let head := spaces gap ++ entry.term ++ spaces (width - entry.term.length + gap)
  head ++ String.intercalate ("\n" ++ spaces column) (lines (pageWidth - column - 1) entry.text)

def Page.render (page : Page) : String :=
  let terms := (page.sections.flatMap Section.entries).map fun entry => entry.term.length
  let width := terms.foldl max 0
  let body := page.sections.map fun part =>
    part.title ++ ":\n" ++
      String.intercalate "\n" (part.entries.map (Entry.render width)) ++ "\n"
  String.intercalate "\n" (("Usage: " ++ page.usage ++ "\n") :: (page.description ++ "\n") :: body)

def switchEntry (switch : Switch) : Entry := ⟨switch.flags, switch.description⟩

/-- The entry of the switch that every page has. -/
def helpEntry : Entry := ⟨"-h, --help", "display help for command"⟩

def programPage : Page :=
  { usage := programName ++ " [options] [command]"
    description := "Compile stacked video compositions into FFmpeg filter graphs"
    sections := [
      ⟨"Options", Switch.ofProgram.map switchEntry ++ [helpEntry]⟩,
      ⟨"Commands",
        (Command.all.map fun command => ⟨command.term, command.description⟩) ++
          [⟨"help [command]", "display help for command"⟩]⟩] }

def commandPage (command : Command) : Page :=
  { usage := programName ++ " " ++ command.name ++ " [options]" ++
      if command.takesScene then " <scene>" else ""
    description := command.description
    sections :=
      (if command.takesScene then
        [⟨"Arguments", [⟨"scene", "Scene JSON file, or the name of a bundled scene"⟩]⟩]
      else []) ++
        [⟨"Options", command.switches.map switchEntry ++ [helpEntry]⟩] }

/-- A page by the command that it is about. -/
def page : Option Command → Page
  | none => programPage
  | some command => commandPage command

end Manual

def Stop.output : Stop → String
  | .version => programVersion ++ "\n"
  | .help page => (Manual.page page).render
  | .manual page true => (Manual.page page).render
  | _ => ""

def Stop.complaint : Stop → String
  | .version => ""
  | .help _ => ""
  | .manual page asked => if asked then "" else (Manual.page page).render
  | other => other.message ++ "\n"

end Montage.CommandLine
