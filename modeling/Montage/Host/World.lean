import Montage.Host.Failure
import Montage.Settings.Basic

/-!
# The world of a job

A job sees files, environment variables and settings, writes lines, and
starts programs.  The world holds all of this as one value, so a job is a
function from worlds to worlds that may fail on the way.
-/

namespace Montage

/-- How important a log record is, and how much a log shows. -/
inductive Level where
  | error
  | warn
  | info
  | debug
deriving DecidableEq, Repr

namespace Level

/-- Greater ranks are less important. -/
def rank : Level → Nat
  | .error => 0
  | .warn => 1
  | .info => 2
  | .debug => 3

/-- A log at this level shows records of another one. -/
def shows (threshold level : Level) : Bool := level.rank ≤ threshold.rank

def name : Level → String
  | .error => "ERROR"
  | .warn => "WARN"
  | .info => "INFO"
  | .debug => "DEBUG"

end Level

/-- What can be observed of a job.  A directory or a program is requested
before it is known whether it can be made or started. -/
inductive Event where
  | printed (text : String)
  | complained (text : String)
  | logged (level : Level) (message : String)
  | directoryRequested (path : String)
  | directoryMade (path : String)
  | programRequested (name : String) (arguments : List String)
  | started (program : Location) (arguments : List String)
deriving DecidableEq, Repr

def Event.output : Event → String
  | .printed text => text
  | _ => ""

def Event.complaint : Event → String
  | .complained text => text
  | .logged level message => "[" ++ level.name ++ "]: " ++ message ++ "\n"
  | _ => ""

/-- What a machine and its platform settle by themselves: where the home
directory is unless a variable says otherwise, the name of the operating
system, the version of the platform, what its reader of JSON has against a text
that it does not read, and the calls that a trace of a failure shows.  If no
more than the version is said of a host, the superuser of a Linux system runs
the program, and neither reasons nor calls are told. -/
structure Host where
  standardHome : String := "/root"
  system : String := "linux"
  platformVersion : String
  syntaxReason : String → String := fun _ => "<reason>"
  frames : Failure → List String := fun _ => []

/-- Everything that a job can see or change.  The installation is the directory
of the program itself, which is known before any job begins: that it cannot be
found, and that the working directory has been removed, is left out. -/
structure World extends Host where
  files : FileSystem
  directory : Location
  installation : Location
  environment : Environment
  settings : Option Settings
  threshold : Level
  journal : List Event
  status : Nat

/-- A job: it changes the world and yields a value or fails. -/
abbrev Job (α : Type) := EStateM Failure World α

namespace Job

def fail (failure : Failure) : Job α := throw failure

/-- The value of a computation that may be at fault. -/
def ofExcept (failure : ε → Failure) : Except ε α → Job α
  | .ok value => pure value
  | .error error => fail (failure error)

def note (event : Event) : Job Unit :=
  modify fun world => { world with journal := world.journal ++ [event] }

def print (line : String) : Job Unit := note (.printed (line ++ "\n"))

def complain (line : String) : Job Unit := note (.complained (line ++ "\n"))

/-- Logs a record, if the log shows its level. -/
def log (level : Level) (message : String) : Job Unit := do
  let world ← get
  if world.threshold.shows level then note (.logged level message)

def setThreshold (threshold : Level) : Job Unit :=
  modify fun world => { world with threshold }

/-- Settles the settings anew. -/
def configure (given : GivenSettings) : Job Settings := do
  let world ← get
  let settings := Settings.make given world.environment
  set { world with settings := some settings }
  return settings

/-- The settings, settled now if they have not been before. -/
def settings : Job Settings := do
  match (← get).settings with
  | some settings => return settings
  | none => configure Settings.noneGiven

def variableValue (name : String) : Job (Option String) := do
  return (← get).environment.find? name

def setVariable (name : String) (value : Option String) : Job Unit :=
  modify fun world =>
    { world with
      environment :=
        match value with
        | some value => world.environment.assign name value
        | none => world.environment.clear name }

/-! What each of these jobs does to a world. -/

theorem run_fail (failure : Failure) (world : World) :
    (fail failure : Job α) world = .error failure world := rfl

theorem run_ofExcept_ok (failure : ε → Failure) (value : α) (world : World) :
    ofExcept failure (.ok value) world = .ok value world := rfl

theorem run_ofExcept_error (failure : ε → Failure) (error : ε) (world : World) :
    (ofExcept failure (.error error) : Job α) world = .error (failure error) world := rfl

theorem run_note (event : Event) (world : World) :
    note event world = .ok () { world with journal := world.journal ++ [event] } := rfl

theorem run_print (line : String) (world : World) :
    print line world =
      .ok () { world with journal := world.journal ++ [.printed (line ++ "\n")] } := rfl

theorem run_complain (line : String) (world : World) :
    complain line world =
      .ok () { world with journal := world.journal ++ [.complained (line ++ "\n")] } := rfl

theorem run_log (level : Level) (message : String) (world : World) :
    log level message world =
      .ok ()
        (if world.threshold.shows level then
          { world with journal := world.journal ++ [.logged level message] }
        else world) := by
  change (if world.threshold.shows level = true then note (.logged level message)
    else pure () : Job Unit) world = _
  split <;> rfl

theorem run_configure (given : GivenSettings) (world : World) :
    configure given world =
      .ok (Settings.make given world.environment)
        { world with settings := some (Settings.make given world.environment) } := rfl

theorem run_settings_of_some {world : World} {current : Settings}
    (settled : world.settings = some current) :
    settings world = .ok current world := by
  change (match world.settings with
    | some current => pure current
    | none => configure Settings.noneGiven : Job Settings) world = _
  rw [settled]
  rfl

theorem run_settings_of_none {world : World} (unsettled : world.settings = none) :
    settings world = configure Settings.noneGiven world := by
  change (match world.settings with
    | some current => pure current
    | none => configure Settings.noneGiven : Job Settings) world = _
  rw [unsettled]

end Job

end Montage
