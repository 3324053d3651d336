import Montage.Host.World
import Montage.Text.Utf8
import Montage.Value.Reader

/-!
# Files of a job

Reading files and making directories, in the world of a job.
-/

namespace Montage

namespace World

def home (world : World) : String :=
  (world.environment.get? "HOME").getD world.standardHome

/-- A path with the home directory in place of a tilde that begins it. -/
def expandHome (world : World) (path : String) : String :=
  match path.toList with
  | '~' :: rest =>
      let joined := Path.join ([world.home, String.ofList rest].filter (· ≠ ""))
      let slash := if Path.endsInSlash joined then "/" else ""
      Path.ofLocation (Path.resolve world.directory joined) ++ slash
  | _ => path

/-- A directory, given by its path from the top one, is a root if it holds the
file `package.json`. -/
def isRoot (world : World) (directory : String) : Bool :=
  world.files.holds world.directory (Path.below [] [directory, "package.json"])

end World

namespace Job

def pathExists (path : String) : Job Bool := do
  let world ← get
  return world.files.holds world.directory path

/-- No path has a null character in it. -/
def refuseNullPath (path : String) : Job Unit :=
  if path.toList.contains '\x00' then
    fail (.refusedArgument "path" "must be a string, Uint8Array, or URL without null bytes" path)
  else pure ()

def readText (path : String) : Job String := do
  refuseNullPath path
  let world ← get
  match world.files.bytes world.directory path with
  | .ok bytes => return Text.Utf8.decode bytes
  | .error .missing => fail (.fileNotFound path)
  | .error fault => fail (.unreadable path fault)

def readValue (path : String) : Job Value := do
  let text ← readText path
  match Value.read? text with
  | some value => return value
  | none => fail (.notJson path ((← get).syntaxReason text))

/-- Makes a directory and those above it that are missing. -/
def makeDirectories (path : String) : Job Unit := do
  note (.directoryRequested path)
  refuseNullPath path
  let world ← get
  let (files, obstacle) := world.files.makeDirectories world.directory path
  set { world with files }
  match obstacle with
  | some obstacle => fail (.noDirectory obstacle)
  | none => note (.directoryMade path)

/-- The location that a path leads to from the working directory. -/
def resolve (path : String) : Job Location := do
  return Path.resolve (← get).directory path

/-- The nearest root from a directory upward.  The search ends at a directory
that stands in itself. -/
def nearestRoot? (world : World) (directory : String) : Option String :=
  if world.isRoot directory then some directory
  else if Path.parent directory = directory then none
  else nearestRoot? world (Path.parent directory)
termination_by Path.reach directory.toList
decreasing_by exact Path.reach_parent_lt ‹_›

/-- The nearest root above, or at, a path. -/
def findRoot (start : String) : Job String := do
  let world ← get
  match nearestRoot? world (Path.ofLocation (Path.resolve world.directory start)) with
  | some root => return root
  | none => fail (.rootNotFound start)

/-- The path of what segments lead to from the directory of bundled
scenes. -/
def bundledPath (segments : List String) : Job String := do
  return Path.below (← get).installation ("scenes" :: segments)

/-! The steps of a search upward. -/

section

variable {world : World} {directory : String}

theorem nearestRoot?_of_isRoot (found : world.isRoot directory = true) :
    nearestRoot? world directory = some directory := by
  rw [nearestRoot?.eq_def, if_pos found]

theorem nearestRoot?_of_top (absent : world.isRoot directory = false)
    (top : Path.parent directory = directory) : nearestRoot? world directory = none := by
  rw [nearestRoot?.eq_def, absent, if_neg Bool.false_ne_true, if_pos top]

theorem nearestRoot?_of_onward (absent : world.isRoot directory = false)
    (onward : Path.parent directory ≠ directory) :
    nearestRoot? world directory = nearestRoot? world (Path.parent directory) := by
  rw [nearestRoot?.eq_def, absent, if_neg Bool.false_ne_true, if_neg onward]

end

/-! Jobs that only look change nothing. -/

theorem run_pathExists (path : String) (world : World) :
    pathExists path world = .ok (world.files.holds world.directory path) world := rfl

theorem run_resolve (path : String) (world : World) :
    resolve path world = .ok (Path.resolve world.directory path) world := rfl

theorem run_bundledPath (segments : List String) (world : World) :
    bundledPath segments world =
      .ok (Path.below world.installation ("scenes" :: segments)) world := rfl

end Job

end Montage
