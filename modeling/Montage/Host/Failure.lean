import Montage.CommandLine.Stop
import Montage.Composition.Error
import Montage.Host.FileSystem
import Montage.Scene.Document
import Montage.Text.Quoted

/-!
# Failures

A failure says why a job came to no result.  Each has a sentence for the
user; a render that fails keeps the failure that caused it.
-/

namespace Montage

/-- Why a job came to no result. -/
inductive Failure where
  | composition (error : CompositionError)
  | scene (error : Scene.Error)
  | sceneNotFound (scene : String)
  | rootNotFound (start : String)
  | fileNotFound (path : String)
  | unreadable (path : String) (fault : PathFault)
  | notJson (path : String) (reason : String)
  | noDirectory (obstacle : Obstacle)
  | refusedArgument (name : String) (reason : String) (content : String)
  | notStarted (program : String) (fault : PathFault)
  | notStartable (fault : PathFault)
  | overflowed (stream : String)
  | exited (program : String) (arguments : List String) (complaint : String)
  | render (cause : Failure)
  | stopped (stop : CommandLine.Stop)
deriving Repr

namespace Failure

/-- The sentence of a path fault during an operation.  The failing path is
known when something is opened or made, not when it is read. -/
def pathMessage (fault : PathFault) (operation : String) : String :=
  fault.code ++ ": " ++ fault.words ++ ", " ++ operation

def message : Failure → String
  | .composition error => error.message
  | .scene error => error.message
  | .sceneNotFound name => "Scene not found: " ++ name
  | .rootNotFound start => "Could not find project root from " ++ start
  | .fileNotFound path => "File not found: " ++ path
  | .unreadable path fault =>
      if fault = .isDirectory then pathMessage fault "read"
      else pathMessage fault ("open '" ++ path ++ "'")
  | .notJson path reason => "Failed to parse JSON at " ++ path ++ ": " ++ reason
  | .noDirectory obstacle =>
      pathMessage obstacle.fault ("mkdir '" ++ obstacle.path ++ "'")
  | .refusedArgument name reason content =>
      "The argument '" ++ name ++ "' " ++ reason ++ ". Received " ++ Text.quoted content
  | .notStarted program fault => "spawn " ++ program ++ " " ++ fault.code
  | .notStartable fault => "spawn " ++ fault.code
  | .overflowed stream => stream ++ " maxBuffer length exceeded"
  | .exited program arguments complaint =>
      "Command failed: " ++ String.intercalate " " (program :: arguments) ++ "\n" ++ complaint
  | .render cause => "Render failed: " ++ cause.message
  | .stopped stop => stop.message

/-- The failure lies in the type of a value that was handed over, and not in
what happened to it. -/
def isTypeFailure : Failure → Bool
  | .scene error => error.fault = .unquotable
  | .refusedArgument _ _ _ => true
  | _ => false

/-- A failure with its heading, as traces show it. -/
def heading (failure : Failure) : String :=
  (if failure.isTypeFailure then "TypeError: " else "Error: ") ++ failure.message

/-- The trace of a failure: below its heading stand the calls under which it
came up, each on a line of its own. -/
def trace (failure : Failure) (frames : List String) : String :=
  String.intercalate "\n" (failure.heading :: frames)

end Failure

end Montage
