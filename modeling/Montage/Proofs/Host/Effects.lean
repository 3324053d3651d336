import Montage.Proofs.Host.NullFree

/-!
# What jobs leave behind

A job finds files, a working directory, an environment and settings.  Most jobs
leave all of these as they are and have no effect besides log records.  A world
leads to another one with given effects if nothing else has changed that a
later job could find.
-/

namespace Montage

/-! ## Worlds -/

namespace World

/-- Nothing stands in the file tree but its root, and nothing has been set,
settled or logged. -/
def empty : World where
  platformVersion := ""
  files := FileSystem.empty
  directory := []
  installation := []
  environment := []
  settings := none
  threshold := .info
  journal := []
  status := 0

/-- The settings that a job finds. -/
def currentSettings (world : World) : Settings :=
  world.settings.getD (Settings.make Settings.noneGiven world.environment)

/-- The world once the settings have been asked for. -/
def settled (world : World) : World :=
  { world with settings := some world.currentSettings }

/-- The world after something has been observed. -/
def noted (world : World) (event : Event) : World :=
  { world with journal := world.journal ++ [event] }

/-- The world with other files in it. -/
def withFiles (world : World) (files : FileSystem) : World := { world with files }

/-- The world after a record, which is kept if the log shows its level. -/
def logged (world : World) (level : Level) (message : String) : World :=
  if world.threshold.shows level then
    { world with journal := world.journal ++ [.logged level message] }
  else world

@[simp] theorem currentSettings_settled (world : World) :
    world.settled.currentSettings = world.currentSettings := rfl

@[simp] theorem currentSettings_logged (world : World) (level : Level) (message : String) :
    (world.logged level message).currentSettings = world.currentSettings := by
  unfold logged
  split <;> rfl

end World

namespace Job

theorem run_settings (world : World) :
    settings world = .ok world.currentSettings world.settled := by
  cases found : world.settings with
  | none =>
      rw [run_settings_of_none found, run_configure, World.settled, World.currentSettings,
        found, Option.getD_none]
  | some current =>
      have unchanged : world.settled = world := by
        rw [World.settled, World.currentSettings, found, Option.getD_some, ← found]
      rw [run_settings_of_some found, unchanged, World.currentSettings, found, Option.getD_some]

theorem run_log_eq_logged (level : Level) (message : String) (world : World) :
    log level message world = .ok () (world.logged level message) :=
  run_log level message world

theorem run_log_fail {α : Type} (level : Level) (message : String) (failure : Failure)
    (world : World) :
    (log level message >>= fun _ => fail failure : Job α) world =
      .error failure (world.logged level message) := by
  rw [run_bind_of_ok (run_log_eq_logged level message world), run_fail]

end Job

/-! ## Effects -/

def Event.isRecord : Event → Bool
  | .logged _ _ => true
  | _ => false

namespace World

/-- Everything that has been observed but log records. -/
def effects (world : World) : List Event := world.journal.filter (!·.isRecord)

@[simp] theorem effects_noted {event : Event} (effective : event.isRecord = false)
    (world : World) : (world.noted event).effects = world.effects ++ [event] := by
  simp [noted, effects, effective]

@[simp] theorem effects_logged (world : World) (level : Level) (message : String) :
    (world.logged level message).effects = world.effects := by
  unfold logged
  split
  · simp [effects, Event.isRecord]
  · rfl

/-- Jobs find the same host, and the same files from the same place in the same
environment. -/
structure SameHost (before after : World) : Prop where
  host : after.toHost = before.toHost
  files : after.files = before.files
  directory : after.directory = before.directory
  installation : after.installation = before.installation
  environment : after.environment = before.environment

/-- One world leads to another with given effects: besides these and log
records, no job can tell the two apart. -/
structure Leads (before : World) (added : List Event) (after : World) : Prop
    extends SameHost before after where
  settings : after.currentSettings = before.currentSettings
  effects : after.effects = before.effects ++ added

variable {before between after : World} {added more : List Event}

theorem Leads.refl (world : World) : world.Leads [] world :=
  ⟨⟨rfl, rfl, rfl, rfl, rfl⟩, rfl, (List.append_nil _).symm⟩

theorem Leads.trans (first : before.Leads added between) (second : between.Leads more after) :
    before.Leads (added ++ more) after where
  host := second.host.trans first.host
  files := second.files.trans first.files
  directory := second.directory.trans first.directory
  installation := second.installation.trans first.installation
  environment := second.environment.trans first.environment
  settings := second.settings.trans first.settings
  effects := by rw [second.effects, first.effects, List.append_assoc]

theorem SameHost.withFiles (same : before.SameHost after) (files : FileSystem) :
    (before.withFiles files).SameHost (after.withFiles files) :=
  ⟨same.host, rfl, same.directory, same.installation, same.environment⟩

theorem Leads.withFiles (leads : before.Leads added after) (files : FileSystem) :
    (before.withFiles files).Leads added (after.withFiles files) :=
  ⟨leads.toSameHost.withFiles files, leads.settings, leads.effects⟩

theorem leads_settled (world : World) : world.Leads [] world.settled :=
  ⟨⟨rfl, rfl, rfl, rfl, rfl⟩, rfl, (List.append_nil _).symm⟩

theorem leads_noted (world : World) (event : Event) (effective : event.isRecord = false) :
    world.Leads [event] (world.noted event) :=
  ⟨⟨rfl, rfl, rfl, rfl, rfl⟩, rfl, effects_noted effective world⟩

theorem leads_logged (world : World) (level : Level) (message : String) :
    world.Leads [] (world.logged level message) where
  toSameHost := by
    unfold logged
    split
    · exact ⟨rfl, rfl, rfl, rfl, rfl⟩
    · exact ⟨rfl, rfl, rfl, rfl, rfl⟩
  settings := currentSettings_logged world level message
  effects := by rw [effects_logged, List.append_nil]

theorem Leads.logged (leads : before.Leads added between) (level : Level) (message : String) :
    before.Leads added (between.logged level message) := by
  have both := leads.trans (leads_logged between level message)
  rwa [List.append_nil] at both

theorem Leads.noted (leads : before.Leads added between) (event : Event)
    (effective : event.isRecord = false) :
    before.Leads (added ++ [event]) (between.noted event) :=
  leads.trans (leads_noted between event effective)

/-- What a name stands for depends on nothing that the effects of a job
change. -/
theorem SameHost.program_eq (same : before.SameHost after) (name : String) :
    after.program name = before.program name := by
  rw [program, program, same.files, same.directory, same.environment]

end World

namespace Job

/-- The world in which a job leaves off, whether or not it fails. -/
def leaves {α : Type} (job : Job α) (world : World) : World :=
  match job world with
  | .ok _ after => after
  | .error _ after => after

theorem leaves_eq {α : Type} {job rest : Job α} {world between : World}
    (continues : job world = rest between) : leaves job world = leaves rest between := by
  rw [leaves, leaves, continues]

theorem leaves_of_ok {α : Type} {job : Job α} {value : α} {world after : World}
    (success : job world = .ok value after) : leaves job world = after := by
  rw [leaves, success]

theorem leaves_of_error {α : Type} {job : Job α} {failure : Failure} {world after : World}
    (failed : job world = .error failure after) : leaves job world = after := by
  rw [leaves, failed]

/-- What a job yields, if it does not fail. -/
def yields? {α : Type} (job : Job α) (world : World) : Option α :=
  match job world with
  | .ok value _ => some value
  | .error _ _ => none

theorem yields?_of_ok {α : Type} {job : Job α} {value : α} {world after : World}
    (success : job world = .ok value after) : yields? job world = some value := by
  rw [yields?, success]

theorem yields?_of_error {α : Type} {job : Job α} {failure : Failure} {world after : World}
    (failed : job world = .error failure after) : yields? job world = none := by
  rw [yields?, failed]

theorem exists_of_yields? {α : Type} {job : Job α} {value : α} {world : World}
    (yields : yields? job world = some value) : ∃ after, job world = .ok value after := by
  cases ran : job world with
  | ok found after =>
      rw [yields?_of_ok ran] at yields
      exact ⟨after, by rw [Option.some.inj yields]⟩
  | error failure after =>
      rw [yields?_of_error ran] at yields
      cases yields

/-- What a job yields is printed after all that the job does. -/
theorem exists_effects_print (job : Job String) (world : World) :
    ∃ lines : List String,
      (leaves (job >>= print) world).effects =
        (leaves job world).effects ++ lines.map Event.printed := by
  cases ran : job world with
  | ok line after =>
      rw [leaves_of_ok ran, leaves_of_ok ((run_bind_of_ok ran).trans (run_print line after))]
      exact ⟨[line ++ "\n"], World.effects_noted rfl after⟩
  | error failure after =>
      rw [leaves_of_error ran, leaves_of_error (run_bind_of_error ran)]
      exact ⟨[], (List.append_nil _).symm⟩

end Job

/-! ## Making directories and starting programs -/

namespace Job

/-- A host takes a name that is not empty, and texts without null characters
only. -/
structure Accepts (name : String) (arguments : List String) : Prop where
  nonempty : name ≠ ""
  name : NullFree name
  arguments : ∀ argument ∈ arguments, NullFree argument

theorem run_makeDirectories {path : String} (nullFree : NullFree path) (world : World) :
    makeDirectories path world =
      match world.files.makeDirectories world.directory path with
      | (files, some obstacle) =>
          .error (.noDirectory obstacle)
            ((world.withFiles files).noted (.directoryRequested path))
      | (files, none) =>
          .ok () (((world.withFiles files).noted (.directoryRequested path)).noted
            (.directoryMade path)) := by
  rw [makeDirectories, run_bind_of_ok (run_note _ world),
    run_bind_of_ok (run_refuseNullPath nullFree _), run_bind_of_ok (run_get _)]
  dsimp only
  rcases world.files.makeDirectories world.directory path with ⟨files, _ | obstacle⟩ <;> rfl

theorem run_start {name : String} {arguments : List String} (accepts : Accepts name arguments)
    (world : World) :
    start name arguments world =
      match world.program name with
      | .error fault =>
          .ok (.error fault) (world.noted (.programRequested name arguments))
      | .ok (location, run) =>
          .ok (.ok (run arguments))
            ((world.noted (.programRequested name arguments)).noted
              (.started location arguments)) := by
  rw [start, run_bind_of_ok (run_note _ world),
    run_bind_of_ok (run_refuseNull accepts.name _ _ _)]
  dsimp only
  rw [if_neg accepts.nonempty, run_bind_of_ok (run_refuseNullArguments accepts.arguments _ _)]
  rw [run_bind_of_ok (run_get _)]
  have found : World.program { world with
      journal := world.journal ++ [.programRequested name arguments] } name =
        world.program name := rfl
  rw [found]
  rcases world.program name with fault | ⟨location, run⟩ <;> rfl

theorem exists_makeDirectories_refusal {path : String} (holds : ¬ NullFree path)
    (world : World) :
    ∃ failure, makeDirectories path world =
      .error failure (world.noted (.directoryRequested path)) := by
  obtain ⟨failure, refused⟩ :=
    exists_refuseNullPath_refusal holds (world.noted (.directoryRequested path))
  rw [makeDirectories, run_bind_of_ok (run_note _ world)]
  exact ⟨failure, run_bind_of_error refused⟩

theorem exists_start_refusal {name : String} {arguments : List String}
    (unaccepted : ¬ Accepts name arguments) (world : World) :
    ∃ refused reason content, start name arguments world =
      .error (.refusedArgument refused reason content)
        (world.noted (.programRequested name arguments)) := by
  rw [start, run_bind_of_ok (run_note _ world)]
  by_cases nameFree : NullFree name
  · rw [run_bind_of_ok (run_refuseNull nameFree _ _ _)]
    dsimp only
    by_cases empty : name = ""
    · rw [if_pos empty]
      exact ⟨_, _, _, rfl⟩
    · have holds : ¬ ∀ argument ∈ arguments, NullFree argument :=
        fun arguments => unaccepted ⟨empty, nameFree, arguments⟩
      obtain ⟨_, _, _, refusal⟩ := exists_refuseNullArguments_refusal holds 0 _
      rw [if_neg empty]
      exact ⟨_, _, _, run_bind_of_error refusal⟩
  · exact ⟨_, _, _, run_bind_of_error (run_refuseNull_of_holds nameFree _ _ _)⟩

end Job

end Montage
