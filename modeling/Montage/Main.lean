import Montage.Program
import Montage.Scene.Bundled

/-!
# The command line

The program is a function of the world, so the command line takes a picture of
the part of the world that the program may look at, runs it, and carries out
what the journal says.  Programs are not in the picture: a render gets as far
as looking for FFmpeg.
-/

namespace Montage.Console

/-- The version that the check of the platform is told.  The program needs no
platform to run on here, so the check always passes. -/
def platformVersion : String := "v20.0.0"

/-- All that is said against a text that does not read as JSON. -/
def syntaxReason (_ : String) : String := "the text is not JSON"

/-- The location of an absolute path. -/
def locationOf (path : String) : Location := Path.resolve [] path

def variableNames : List String :=
  ["FFMPEG_PATH", "OUTPUT_PATH", "OVERWRITE", "VERBOSE"]

def readEnvironment : IO Environment := do
  let mut environment : Environment := []
  for name in variableNames do
    if let some value ← IO.getEnv name then environment := environment.set name value
  return environment

/-- Adds what stands at a location, and at every location above it. -/
def addReal (files : FileSystem) (location : Location) : IO FileSystem := do
  let here ← IO.currentDir
  let mut files := files
  for count in List.range (location.length + 1) do
    let above := location.take count
    let path := here / Path.ofLocation above
    if ← path.isDir then files := files.add above .directory
    else if ← path.pathExists then
      files := files.add above (.file (← IO.FS.readBinFile path).toList)
  return files

def addInstalled (files : FileSystem) (installation : Location) : FileSystem :=
  Scene.installedFiles.foldl
    (fun files entry =>
      files.add (Path.resolve installation entry.1) (.file entry.2.toUTF8.toList))
    (files.add (installation ++ ["scenes"]) .directory)

/-- The part of the world that a command line is about. -/
def readWorld (words : List String) : IO World := do
  let directory := locationOf (← IO.currentDir).toString
  let installation := locationOf (← IO.appDir).toString
  let mut files ← addReal .empty installation
  for path in Program.pathsOf words do
    files ← addReal files (Path.resolve directory path)
  return {
    platformVersion
    syntaxReason
    files := addInstalled files installation
    directory
    installation
    environment := ← readEnvironment
    settings := none
    threshold := .info
    journal := []
    status := 0 }

def carryOut : Event → IO Unit
  | .printed text => IO.print text
  | .complained text => IO.eprint text
  | .logged level message => IO.eprint (Event.complaint (.logged level message))
  | .directoryRequested _ => pure ()
  | .directoryMade path => IO.FS.createDirAll path
  | .programRequested _ _ => pure ()
  | .started _ _ => pure ()

end Montage.Console

/-- Runs the program on the words of a command line. -/
def main (words : List String) : IO UInt32 := do
  let world ← Montage.Console.readWorld words
  let final :=
    match (Montage.Program.runToExit words).run world with
    | .ok _ after => after
    | .error _ after => after
  for event in final.journal do
    Montage.Console.carryOut event
  return final.status.toUInt32
