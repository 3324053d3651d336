import Montage.Path

/-!
# File trees

A file tree says what stands at each location.  Looking something up follows
a path part by part, and every part but the last has to lead to a directory
that exists; so a path can fail although the location it resolves to is there.
-/

namespace Montage

/-- What a child process leaves behind that comes to its own end.  How long it
takes, and that a signal ends it, is left out. -/
structure Outcome where
  output : String
  complaint : String
  status : Nat
deriving DecidableEq, Repr, Inhabited

/-- The stream to which a child process writes more bytes than it may, if there
is one.  Such a process is stopped, so its status does not count. -/
def Outcome.overflow? (outcome : Outcome) (most : Nat) : Option String :=
  if most < outcome.output.utf8ByteSize then some "stdout"
  else if most < outcome.complaint.utf8ByteSize then some "stderr"
  else none

/-- What can stand at a location.  A program answers every list of
arguments. -/
inductive Entry where
  | directory
  | file (bytes : List UInt8)
  | program (run : List String → Outcome)

/-- Why a path leads nowhere, or to nothing that will do. -/
inductive PathFault where
  | missing
  | notDirectory
  | nameTooLong
  | occupied
  | isDirectory
  | forbidden
deriving DecidableEq, Repr

namespace PathFault

def code : PathFault → String
  | .missing => "ENOENT"
  | .notDirectory => "ENOTDIR"
  | .nameTooLong => "ENAMETOOLONG"
  | .occupied => "EEXIST"
  | .isDirectory => "EISDIR"
  | .forbidden => "EACCES"

def words : PathFault → String
  | .missing => "no such file or directory"
  | .notDirectory => "not a directory"
  | .nameTooLong => "name too long"
  | .occupied => "file already exists"
  | .isDirectory => "illegal operation on a directory"
  | .forbidden => "permission denied"

/-- A program that is missing or must not be run, and not a path that leads to
no program at all. -/
def deniesProgram : PathFault → Bool
  | .missing => true
  | .forbidden => true
  | _ => false

end PathFault

/-- What stands in the way of a directory: at which path, and why. -/
structure Obstacle where
  path : String
  fault : PathFault
deriving DecidableEq, Repr

/-- What stands where. -/
structure FileSystem where
  entry : Location → Option Entry

namespace FileSystem

def empty : FileSystem := ⟨fun location => if location = [] then some .directory else none⟩

def add (files : FileSystem) (location : Location) (entry : Entry) : FileSystem :=
  ⟨fun other => if other = location then some entry else files.entry other⟩

def isDirectory (files : FileSystem) (location : Location) : Bool :=
  match files.entry location with
  | some .directory => true
  | _ => false

def longestName : Nat := 255

def longestPath : Nat := 4095

/-- Follows parts from a location on, looking at each directory on the way. -/
def walk (files : FileSystem) (location : Location) :
    List String → Except PathFault Location
  | [] => .ok location
  | part :: rest =>
      if !files.isDirectory location then .error .notDirectory
      else if part = "" ∨ part = "." then files.walk location rest
      else if part = ".." then files.walk location.dropLast rest
      else if longestName < Path.size part then .error .nameTooLong
      else if (files.entry (location ++ [part])).isNone then .error .missing
      else files.walk (location ++ [part]) rest

/-- The location of what stands at a path. -/
def find (files : FileSystem) (directory : Location) (path : String) :
    Except PathFault Location :=
  if path = "" then .error .missing
  else if longestPath < Path.size path then .error .nameTooLong
  else files.walk (if Path.isAbsolute path then [] else directory) (Path.parts path)

/-- Something stands at a path.  No path has a null character in it. -/
def holds (files : FileSystem) (directory : Location) (path : String) : Bool :=
  !path.toList.contains '\x00' &&
    match files.find directory path with
    | .ok _ => true
    | .error _ => false

/-- The bytes of the file at a path. -/
def bytes (files : FileSystem) (directory : Location) (path : String) :
    Except PathFault (List UInt8) :=
  match files.find directory path with
  | .error fault => .error fault
  | .ok location =>
      match files.entry location with
      | none => .error .missing
      | some .directory => .error .isDirectory
      | some (.file bytes) => .ok bytes
      | some (.program _) => .ok []

/-- Makes one directory, its parent being there.  A slash at the end of the
path is no part of the name. -/
def makeOne (files : FileSystem) (directory : Location) (path : String) :
    Except PathFault FileSystem :=
  if path = "" then .error .missing
  else if longestPath < Path.size path then .error .nameTooLong
  else
    let start := if Path.isAbsolute path then [] else directory
    match (Path.parts path).reverse.dropWhile (· = "") with
    | [] => .error .occupied
    | name :: above =>
        match files.walk start above.reverse with
        | .error fault => .error fault
        | .ok parent =>
            if !files.isDirectory parent then .error .notDirectory
            else if name = "." ∨ name = ".." then .error .occupied
            else if longestName < Path.size name then .error .nameTooLong
            else if (files.entry (parent ++ [name])).isSome then .error .occupied
            else .ok (files.add (parent ++ [name]) .directory)

/-- What stands in the way when a directory is to be made and its path is
taken: nothing if a directory is there.  While a directory below it is still
to be made, something else there is no directory to make it in. -/
def obstacleAt (files : FileSystem) (directory : Location) (path : String)
    (isParent : Bool) : Option Obstacle :=
  match files.find directory path with
  | .error fault => some ⟨path, fault⟩
  | .ok location =>
      if files.isDirectory location then none
      else if isParent then some ⟨path, .notDirectory⟩
      else some ⟨path, .occupied⟩

/-- Makes the directory whose path has the given parts, last part first, and
those above it that are missing.  The tree is returned even when something
stands in the way. -/
def makeUpward (files : FileSystem) (directory : Location) (isParent : Bool) :
    List String → FileSystem × Option Obstacle
  | [] => (files, some ⟨"", .missing⟩)
  | part :: above =>
      let path := Path.join (part :: above).reverse
      match files.makeOne directory path with
      | .ok made => (made, none)
      | .error .notDirectory => (files, some ⟨path, .notDirectory⟩)
      | .error .missing =>
          if above.isEmpty then (files, files.obstacleAt directory path isParent)
          else
            match makeUpward files directory true above with
            | (partly, some obstacle) => (partly, some obstacle)
            | (partly, none) =>
                match partly.makeOne directory path with
                | .ok made => (made, none)
                | .error .notDirectory => (partly, some ⟨path, .notDirectory⟩)
                | .error _ => (partly, partly.obstacleAt directory path isParent)
      | .error _ => (files, files.obstacleAt directory path isParent)

/-- Makes a directory and those above it that are missing. -/
def makeDirectories (files : FileSystem) (directory : Location) (path : String) :
    FileSystem × Option Obstacle :=
  files.makeUpward directory false (Path.parts path).reverse

end FileSystem

end Montage
