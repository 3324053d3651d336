import Montage.Host.World

/-!
# Starting programs

A program is named by a path if its name has a slash in it, and is looked for
in the directories of the variable `PATH` otherwise.  What it answers is all
that a job learns of it.
-/

namespace Montage

/-- The program at a path, and where it is. -/
def FileSystem.programAt (files : FileSystem) (directory : Location) (path : String) :
    Except PathFault (Location × (List String → Outcome)) :=
  match files.find directory path with
  | .error fault => .error fault
  | .ok location =>
      match files.entry location with
      | some (.program run) => .ok (location, run)
      | _ => .error .forbidden

/-- The directories of a search path. -/
def searchDirectories (search : String) : List String :=
  (search.toList.splitOn ':').map String.ofList

/-- The first program of a name in a list of directories.  Directories without
it are passed over, and the last fault met is that of the search; but a program
that must not be run is remembered, and a name that is too long ends it. -/
def FileSystem.search (files : FileSystem) (directory : Location) (name : String)
    (met : PathFault) :
    List String → Except PathFault (Location × (List String → Outcome))
  | [] => .error met
  | place :: rest =>
      let path := if place = "" then name else place ++ "/" ++ name
      match files.programAt directory path with
      | .ok found => .ok found
      | .error .nameTooLong => .error .nameTooLong
      | .error fault =>
          files.search directory name (if met = .forbidden then .forbidden else fault) rest

/-- Where programs are looked for when no search path is set. -/
def defaultSearch : String := "/bin:/usr/bin"

/-- The program that a name stands for in a world. -/
def World.program (world : World) (name : String) :
    Except PathFault (Location × (List String → Outcome)) :=
  if name.toList.contains '/' then world.files.programAt world.directory name
  else
    world.files.search world.directory name .missing
      (searchDirectories ((world.environment.get? "PATH").getD defaultSearch))

namespace Job

/-- Arguments reach a program up to a null character only, so none is let
through. -/
def refuseNull (reason : String) (name content : String) : Job Unit :=
  if content.toList.contains '\x00' then fail (.refusedArgument name reason content)
  else pure ()

/-- Refuses the first argument with a null character in it. -/
def refuseNullArguments (index : Nat) : List String → Job Unit
  | [] => pure ()
  | argument :: rest => do
      refuseNull "must be a string without null bytes"
        ("args[" ++ toString index ++ "]") argument
      refuseNullArguments (index + 1) rest

/-- Starts a program and waits for its outcome. -/
def start (name : String) (arguments : List String) : Job (Except PathFault Outcome) := do
  note (.programRequested name arguments)
  refuseNull "must be a string without null bytes" "file" name
  if name = "" then fail (.refusedArgument "file" "cannot be empty" name)
  refuseNullArguments 0 arguments
  match (← get).program name with
  | .error fault => return .error fault
  | .ok (location, run) => do
      note (.started location arguments)
      return .ok (run arguments)

end Job

end Montage
