import Montage.Ffmpeg
import Montage.Text.Blank

/-!
# Checking prerequisites

The program needs a recent platform and an FFmpeg that runs.  Each is checked
and reported on a line of its own.
-/

namespace Montage.Doctor

structure Check where
  label : String
  passed : Bool
  required : Bool
  message : String
deriving DecidableEq, Repr

/-- The oldest major version of the platform that will do. -/
def leastMajor : Nat := 20

/-- The digits that an integer begins with, with its sign before them and
blanks before that. -/
def leadingInteger? (input : List Char) : Option Int :=
  let trimmed := input.dropWhile Text.isBlank
  let (negative, unsigned) :=
    match trimmed with
    | '-' :: rest => (true, rest)
    | '+' :: rest => (false, rest)
    | _ => (false, trimmed)
  match unsigned.takeWhile Char.isDigit with
  | [] => none
  | digits =>
      let size : Int := digits.foldl (fun total digit => total * 10 + (digit.toNat - 48)) 0
      some (if negative then -size else size)

/-- The major number of a version such as `v20.1.0`.  A mark that takes more
than one unit of UTF-16 is no mark of a version. -/
def major? (version : String) : Option Int :=
  match version.toList with
  | [] => none
  | mark :: rest => if 0x10000 ≤ mark.toNat then none else leadingInteger? rest

def checkPlatform (version : String) : Check :=
  let passed := (major? version).any fun major => (leastMajor : Int) ≤ major
  { label := "Node.js"
    passed
    required := true
    message :=
      if passed then "Node.js " ++ version ++ " (required: ≥20)"
      else "Node.js " ++ version ++ " — version ≥20 required" }

/-- The commands that install FFmpeg on an operating system. -/
def installCommands (system : String) : List String :=
  if system = "win32" then
    ["  winget install Gyan.FFmpeg",
      "  choco install ffmpeg        (alternative)"]
  else if system = "darwin" then ["  brew install ffmpeg"]
  else
    ["  sudo apt install ffmpeg     (Debian/Ubuntu)",
      "  sudo dnf install ffmpeg     (Fedora)",
      "  sudo pacman -S ffmpeg       (Arch)"]

def installHint (system : String) : String :=
  String.intercalate "\n          "
    ("Install FFmpeg:" :: installCommands system ++
      ["  Or set FFMPEG_PATH to a custom binary location"])

/-- The check that says that FFmpeg has not been found. -/
def notFound (system : String) : Check :=
  ⟨"FFmpeg", false, true, "FFmpeg not found — " ++ installHint system⟩

def checkFfmpeg : Job Check := do
  let program ← Ffmpeg.program
  let settings ← Job.settings
  let source :=
    if settings.program ≠ Settings.defaultProgram then "FFMPEG_PATH config"
    else "system PATH"
  match ← Ffmpeg.version? program with
  | some version =>
      return ⟨"FFmpeg", true, true, "FFmpeg " ++ version ++ " (source: " ++ source ++ ")"⟩
  | none => return notFound (← get).system

/-- The line that reports a check. -/
def Check.line (check : Check) : String :=
  let mark := if check.passed then "✅" else if check.required then "❌" else "⬚"
  "  " ++ mark ++ " " ++ check.message

def printLines : List String → Job Unit
  | [] => pure ()
  | line :: rest => do
      Job.print line
      printLines rest

/-- The line that sums up the checks, given how many required ones failed. -/
def verdict (failures : Nat) : String :=
  if failures = 0 then "  All required checks passed! ✅\n"
  else
    "  " ++ toString failures ++ " required check" ++
      (if 1 < failures then "s" else "") ++ " failed ❌\n"

/-- Reports all checks; all is well if every required one passed. -/
def run : Job Bool := do
  Job.print "\nframestack doctor\n"
  let platform := checkPlatform (← get).platformVersion
  let ffmpeg ← checkFfmpeg
  let checks := [platform, ffmpeg]
  let failures := (checks.filter fun check => check.required && !check.passed).length
  printLines (checks.map Check.line)
  Job.print ""
  Job.print (verdict failures)
  return failures = 0

end Montage.Doctor
