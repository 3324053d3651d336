import Montage.Host.Process
import Montage.Text.Units
import Montage.Version

/-!
# Running FFmpeg

Filter graphs are run by FFmpeg, by its name on the search path or by the
program that the settings name.
-/

namespace Montage.Ffmpeg

/-- The name under which the program is started. -/
def program : Job String := do
  let settings ← Job.settings
  if settings.program ≠ "" ∧ settings.program ≠ Settings.defaultProgram then
    Job.log .debug ("FFmpeg: using FFMPEG_PATH config: " ++ settings.program)
    return settings.program
  else
    Job.log .debug "FFmpeg: using system PATH"
    return Settings.defaultProgram

/-- How many bytes a program may write to each of its streams when it is asked
for its version. -/
def largestReport : Nat := 1024 * 1024

/-- The version that a program reports, if it can be started, is not stopped
for writing too much, succeeds and says anything.  It is taken to answer within
the ten seconds that it is given, and not to be ended by a signal. -/
def version? (name : String) : Job (Option String) := do
  let failed (status : String) : Job (Option String) := do
    Job.log .debug ("FFmpeg: '" ++ name ++ " -version' failed (status " ++ status ++ ")")
    return none
  match ← Job.start name ["-version"] with
  | .error _ => failed "null"
  | .ok outcome =>
      if (outcome.overflow? largestReport).isSome then failed "null"
      else if outcome.status ≠ 0 ∨ outcome.output = "" then failed (toString outcome.status)
      else return Version.find? outcome.output

/-- How many bytes the program may write to each of its streams. -/
def largestOutput : Nat := 50 * 1024 * 1024

/-- The complaint of a program that has written too much, as far as it is
kept. -/
def keptComplaint (outcome : Outcome) : String :=
  String.ofList (Text.takeUnits largestOutput outcome.complaint.toList)

/-- Runs the program with arguments.  What it complains of is logged, since it
reports the faults of a graph there; so is the lack of a program, which
complains of nothing.  A path that leads to no program is not worth a record. -/
def run (arguments : List String) : Job Unit := do
  let name ← program
  Job.log .debug ("[FFmpeg] " ++ name ++ " " ++ String.intercalate " " arguments)
  match ← Job.start name arguments with
  | .error fault =>
      if fault.deniesProgram then
        Job.log .error "[FFmpeg] failed: "
        Job.fail (.notStarted name fault)
      else Job.fail (.notStartable fault)
  | .ok outcome =>
      match outcome.overflow? largestOutput with
      | some stream =>
          Job.log .error ("[FFmpeg] failed: " ++ keptComplaint outcome)
          Job.fail (.overflowed stream)
      | none =>
          if outcome.status ≠ 0 then
            Job.log .error ("[FFmpeg] failed: " ++ outcome.complaint)
            Job.fail (.exited name arguments outcome.complaint)

end Montage.Ffmpeg
