import Montage.CommandLine.Invocation
import Montage.Composition.Keynotes
import Montage.Doctor
import Montage.Render
import Montage.Scene.Lookup
import Montage.Settings.EnvFile
import Montage.Value.Writer

/-!
# The program

A command first settles the settings and how much is logged, then does its
work.  Commands whose product is what they print log warnings and errors only,
unless everything is to be logged.
-/

namespace Montage

open CommandLine (Choices Command Invocation Stop)

namespace Program

/-- Adds the variables of a settings file to the environment.  A file that
cannot be read adds none.  A tilde that begins the path is the home
directory. -/
def loadEnvFile (path : String) : Job Unit :=
  try
    let text ← Job.readText ((← get).expandHome path)
    modify fun world =>
      { world with environment := EnvFile.addMissing (EnvFile.read text) world.environment }
  catch _ => pure ()

/-- The path of the settings file in the working directory. -/
def defaultEnvFile : Job String := do
  return Path.below (← get).directory [".env"]

/-- Settles the settings and how much is logged. -/
def configure (choices : Choices) (quiet : Bool) : Job Unit := do
  let _ ← Job.configure choices.given
  if choices.verbose then Job.setThreshold .debug
  else if quiet then Job.setThreshold .warn

/-- Prints how a composition is rendered, as a list of arguments in JSON or as
a command line. -/
def display (root : Node) (json : Bool) : Job Unit := do
  if json then
    let planned ← Render.plan root Render.noOptions
    Job.print (Value.list (planned.arguments.map Value.text)).write
  else
    Job.print (← Render.describe root Render.noOptions)

def compile (scene : String) (choices : Choices) : Job Unit := do
  configure choices true
  let root ← Scene.load scene
  display root choices.json

def render (scene : String) (choices : Choices) : Job Unit := do
  configure choices false
  let root ← Scene.load scene
  let path ← Render.run root Render.noOptions
  Job.print path

def demo (choices : Choices) : Job Unit := do
  configure choices true
  let root ← Job.ofExcept .composition (rootOf (sideBySideKeynotes choices.logo))
  display root choices.json

/-- Checks the prerequisites.  The exit status tells whether all is well. -/
def doctor (choices : Choices) : Job Unit := do
  configure choices false
  let healthy ← Doctor.run
  if !healthy then modify fun world => { world with status := 1 }

def perform (invocation : Invocation) : Job Unit :=
  match invocation.command with
  | .compile => compile invocation.scene invocation.choices
  | .render => render invocation.scene invocation.choices
  | .demo => demo invocation.choices
  | .doctor => doctor invocation.choices

/-- Writes what a stop has to say, and stops. -/
def stop (reason : Stop) : Job Unit := do
  if reason.output ≠ "" then Job.note (.printed reason.output)
  if reason.complaint ≠ "" then Job.note (.complained reason.complaint)
  Job.fail (.stopped reason)

/-- Understands a command line and does what it asks for. -/
def run (words : List String) : Job Unit :=
  match CommandLine.understand words with
  | .error reason => stop reason
  | .ok invocation => perform invocation

/-- The paths that a command line makes the program look at, besides those of
bundled scenes. -/
def pathsOf (words : List String) : List String :=
  ".env" ::
    match CommandLine.understand words with
    | .error _ => []
    | .ok invocation => invocation.scene :: invocation.choices.output.toList

/-- Reports a failure that ends the program, and sets the exit status. -/
def report (failure : Failure) : Job Unit :=
  match failure with
  | .stopped reason => modify fun world => { world with status := reason.status }
  | other => do
      Job.log .debug (other.trace ((← get).frames other))
      Job.complain ("Error: " ++ other.message)
      modify fun world => { world with status := 1 }

/-- Runs the program from start to exit.  That it cannot begin, since its
installation or the manifest in it is not found or the working directory has
been removed, is left out. -/
def runToExit (words : List String) : Job Unit := do
  loadEnvFile (← defaultEnvFile)
  try run words
  catch failure => report failure

/-! How words are understood is known to a run by the answer alone. -/

theorem run_of_understood {words : List String} {invocation : Invocation}
    (understood : CommandLine.understand words = .ok invocation) :
    run words = perform invocation := by
  rw [run, understood]

theorem run_of_stop {words : List String} {reason : Stop}
    (stops : CommandLine.understand words = .error reason) : run words = stop reason := by
  rw [run, stops]

end Program

end Montage
