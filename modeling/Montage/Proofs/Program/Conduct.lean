import Montage.Proofs.Host.Records
import Montage.Proofs.Program.Preparation

/-!
# How jobs treat settings and log

Finding, reading and starting things neither logs nor looks at the settings.
Whatever plans or runs something consults the settings, and acts as if they had
been settled before.  Only the beginning of a command sets how much is logged.
-/

namespace Montage

/-! ## Files and programs -/

namespace Job

variable {conduct : Conduct}

theorem conducted_refuseNullPath (path : String) : Conducted conduct (refuseNullPath path) :=
  .ite (conducted_fail _) (conducted_pure _)

theorem conducted_refuseNull (reason name content : String) :
    Conducted conduct (refuseNull reason name content) :=
  .ite (conducted_fail _) (conducted_pure _)

theorem conducted_refuseNullArguments (index : Nat) (arguments : List String) :
    Conducted conduct (refuseNullArguments index arguments) := by
  induction arguments generalizing index with
  | nil => exact conducted_pure _
  | cons argument rest induction =>
      exact (conducted_refuseNull _ _ argument).bind fun _ => induction (index + 1)

theorem conducted_start (name : String) (arguments : List String) :
    Conducted conduct (start name arguments) := by
  refine (conducted_note rfl).bind fun _ => ?_
  refine (conducted_refuseNull _ _ name).bind fun _ => ?_
  refine .ite (conducted_fail _) ?_
  refine (conducted_refuseNullArguments 0 arguments).bind fun _ => ?_
  refine conducted_get (fun _ _ _ => rfl) fun world => ?_
  rcases world.program name with fault | ⟨location, run⟩
  · exact conducted_pure _
  · exact (conducted_note rfl).bind fun _ => conducted_pure _

theorem conducted_makeDirectories (path : String) :
    Conducted conduct (makeDirectories path) := by
  refine (conducted_note rfl).bind fun _ => ?_
  refine (conducted_refuseNullPath path).bind fun _ => ?_
  let made (world : World) := world.files.makeDirectories world.directory path
  let rest (obstacle : Option Obstacle) : Job Unit :=
    obstacle.elim (note (.directoryMade path)) fun obstacle => fail (.noDirectory obstacle)
  have rests (obstacle : Option Obstacle) : Conducted conduct (rest obstacle) := by
    cases obstacle with
    | none => exact conducted_note rfl
    | some obstacle => exact conducted_fail _
  have changes (files : FileSystem) : Conducted conduct (modify (World.withFiles · files)) :=
    conducted_modify (fun _ => rfl) (fun _ => rfl) fun _ _ _ => rfl
  -- The world that is put back is the one that was looked at, with other files.
  have puts : Conducted conduct (get >>= fun world =>
      modify (World.withFiles · (made world).1) >>= fun _ => rest (made world).2) :=
    conducted_get (fun _ _ _ => rfl) fun world =>
      (changes (made world).1).bind fun _ => rests (made world).2
  refine (congrArg (Conducted conduct) (funext fun world => ?_)).mp puts
  rw [run_bind_of_ok (run_get world), run_bind_of_ok (run_get world)]
  dsimp only [made]
  rcases world.files.makeDirectories world.directory path with ⟨files, _ | obstacle⟩ <;> rfl

theorem conducted_resolve (path : String) : Conducted conduct (resolve path) :=
  conducted_get (fun _ _ _ => rfl) fun _ => conducted_pure _

theorem conducted_pathExists (path : String) : Conducted conduct (pathExists path) :=
  conducted_get (fun _ _ _ => rfl) fun _ => conducted_pure _

theorem conducted_bundledPath (segments : List String) :
    Conducted conduct (bundledPath segments) :=
  conducted_get (fun _ _ _ => rfl) fun _ => conducted_pure _

theorem conducted_ofExcept {ε α : Type} (failure : ε → Failure) (outcome : Except ε α) :
    Conducted conduct (ofExcept failure outcome) := by
  cases outcome with
  | error error => exact conducted_fail _
  | ok value => exact conducted_pure _

theorem conducted_readText (path : String) : Conducted conduct (readText path) := by
  refine (conducted_refuseNullPath path).bind fun _ => ?_
  refine conducted_get (fun _ _ _ => rfl) fun world => ?_
  split
  · exact conducted_pure _
  · exact conducted_fail _
  · exact conducted_fail _

theorem conducted_readValue (path : String) : Conducted conduct (readValue path) := by
  refine (conducted_readText path).bind fun text => ?_
  split
  · exact conducted_pure _
  · exact conducted_get (fun _ _ _ => rfl) fun _ => conducted_fail _

theorem nearestRoot?_withLog (world : World) (threshold : Level) (journal : List Event)
    (directory : String) :
    nearestRoot? (world.withLog threshold journal) directory = nearestRoot? world directory := by
  have sameRoots (place : String) :
      (world.withLog threshold journal).isRoot place = world.isRoot place := rfl
  induction directory using nearestRoot?.induct world with
  | case1 directory found =>
      rw [nearestRoot?_of_isRoot found,
        nearestRoot?_of_isRoot ((sameRoots directory).trans found)]
  | case2 directory absent top =>
      have absent := Bool.eq_false_iff.mpr absent
      rw [nearestRoot?_of_top absent top,
        nearestRoot?_of_top ((sameRoots directory).trans absent) top]
  | case3 directory absent onward induction =>
      have absent := Bool.eq_false_iff.mpr absent
      rw [nearestRoot?_of_onward absent onward,
        nearestRoot?_of_onward ((sameRoots directory).trans absent) onward, induction]

theorem conducted_findRoot (start : String) : Conducted conduct (findRoot start) := by
  refine conducted_get (fun world threshold journal => ?_) fun world => ?_
  · rw [nearestRoot?_withLog]
    rfl
  split
  · exact conducted_pure _
  · exact conducted_fail _

end Job

open Job

/-! ## Scenes -/

namespace Scene

theorem conducted_locate {conduct : Conduct} (scene : String) :
    Conducted conduct (locate scene) := by
  refine (conducted_resolve scene).bind fun target => ?_
  refine (conducted_pathExists _).bind fun _ => .ite (conducted_pure _) ?_
  refine (conducted_bundledPath _).bind fun bundled => ?_
  exact (conducted_pathExists _).bind fun _ => .ite (conducted_pure _) (conducted_fail _)

theorem conducted_load (scene : String) : Conducted .logging (load scene) := by
  refine (conducted_locate scene).bind fun path => ?_
  refine (conducted_log _ _).bind fun _ => ?_
  refine (conducted_readValue path).bind fun document => ?_
  exact conducted_ofExcept _ _

end Scene

/-! ## The program -/

namespace Ffmpeg

theorem conducted_program : Conducted .consulting program := by
  have announces (message name : String) :
      Conducted .consulting (log .debug message >>= fun _ => pure name) :=
    (conducted_log _ _).consulting.bind fun _ => conducted_pure _
  exact conducted_settings.bind fun settings => .ite (announces _ _) (announces _ _)

theorem program_actsOnSettings : ActsOnSettings program := actsOnSettings_bind_settings _

theorem conducted_version? (name : String) : Conducted .logging (version? name) := by
  have failed (status : String) : Conducted .logging (do
      log .debug ("FFmpeg: '" ++ name ++ " -version' failed (status " ++ status ++ ")")
      return none : Job (Option String)) :=
    (conducted_log _ _).bind fun _ => conducted_pure _
  refine (conducted_start name _).bind fun started => ?_
  cases started with
  | error fault => exact failed _
  | ok outcome => exact .ite (failed _) (.ite (failed _) (conducted_pure _))

theorem conducted_conclude (name : String) (arguments : List String)
    (started : Except PathFault Outcome) :
    Conducted .logging (conclude name arguments started) := by
  have reported (message : String) (failure : Failure) :
      Conducted .logging (log .error message >>= fun _ => fail failure : Job Unit) :=
    (conducted_log _ _).bind fun _ => conducted_fail _
  cases started with
  | error fault => exact .ite (reported _ _) (conducted_fail _)
  | ok outcome =>
      rw [conclude]
      split
      · exact reported _ _
      · exact .ite (reported _ _) (conducted_pure _)

theorem conducted_run (arguments : List String) : Conducted .consulting (run arguments) := by
  refine conducted_program.bind fun name => ?_
  refine (conducted_log _ _).consulting.bind fun _ => ?_
  refine (conducted_start name arguments).bind fun started => ?_
  exact (conducted_conclude name arguments started).consulting

theorem run_actsOnSettings (arguments : List String) : ActsOnSettings (run arguments) :=
  program_actsOnSettings.bind _

end Ffmpeg

/-! ## Renders -/

namespace Render

theorem conducted_logWarnings (warnings : List Warning) :
    Conducted .logging (logWarnings warnings) := by
  induction warnings with
  | nil => exact conducted_pure _
  | cons warning rest induction => exact (conducted_log _ _).bind fun _ => induction

theorem conducted_plan (root : Node) (options : RenderOptions) :
    Conducted .consulting (plan root options) := by
  refine conducted_settings.bind fun settings => Conducted.consulting ?_
  refine (conducted_ofExcept _ _).bind fun graph => ?_
  refine (conducted_log _ _).bind fun _ => ?_
  refine (conducted_log _ _).bind fun _ => ?_
  exact (conducted_logWarnings _).bind fun _ => conducted_pure _

theorem plan_actsOnSettings (root : Node) (options : RenderOptions) :
    ActsOnSettings (plan root options) :=
  actsOnSettings_bind_settings _

theorem conducted_describe (root : Node) (options : RenderOptions) :
    Conducted .consulting (describe root options) := by
  refine (conducted_plan root options).bind fun planned => ?_
  exact Ffmpeg.conducted_program.bind fun _ => conducted_pure _

theorem describe_actsOnSettings (root : Node) (options : RenderOptions) :
    ActsOnSettings (describe root options) :=
  (plan_actsOnSettings root options).bind _

theorem conducted_produce (path : String) (arguments : List String) :
    Conducted .consulting (produce path arguments) := by
  refine (conducted_log _ _).consulting.bind fun _ => ?_
  refine ((Ffmpeg.conducted_run arguments).tryCatch fun _ => conducted_fail _).bind fun _ => ?_
  exact (conducted_log _ _).consulting.bind fun _ => conducted_pure _

theorem conducted_carryOut (planned : RenderPlan) :
    Conducted .consulting (carryOut planned) := by
  refine (conducted_resolve _).bind fun target => ?_
  refine (conducted_makeDirectories _).bind fun _ => ?_
  exact conducted_produce _ _

theorem conducted_run (root : Node) (options : RenderOptions) :
    Conducted .consulting (run root options) := by
  rw [run_eq]
  exact (conducted_plan root options).bind conducted_carryOut

theorem run_actsOnSettings (root : Node) (options : RenderOptions) :
    ActsOnSettings (run root options) :=
  (plan_actsOnSettings root options).bind _

end Render

/-! ## Checks -/

namespace Doctor

theorem conducted_checkFfmpeg : Conducted .consulting checkFfmpeg := by
  refine Ffmpeg.conducted_program.bind fun name => ?_
  refine conducted_settings.bind fun settings => ?_
  refine (Ffmpeg.conducted_version? name).consulting.bind fun version => ?_
  split
  · exact conducted_pure _
  · exact conducted_get (fun _ _ _ => rfl) fun _ => conducted_pure _

theorem checkFfmpeg_actsOnSettings : ActsOnSettings checkFfmpeg :=
  Ffmpeg.program_actsOnSettings.bind _

theorem conducted_printLines {conduct : Conduct} (lines : List String) :
    Conducted conduct (printLines lines) := by
  induction lines with
  | nil => exact conducted_pure _
  | cons line rest induction => exact (conducted_note rfl).bind fun _ => induction

theorem conducted_run : Conducted .consulting run := by
  refine (conducted_note rfl).bind fun _ => ?_
  refine conducted_get (fun _ _ _ => rfl) fun world => ?_
  refine conducted_checkFfmpeg.bind fun ffmpeg => ?_
  refine (conducted_printLines _).bind fun _ => ?_
  refine (conducted_note rfl).bind fun _ => ?_
  exact (conducted_note rfl).bind fun _ => conducted_pure _

/-- What is left to do once the prerequisites have been checked. -/
def report (platform ffmpeg : Check) : Job Bool := do
  let checks := [platform, ffmpeg]
  let failures := (checks.filter fun check => check.required && !check.passed).length
  printLines (checks.map Check.line)
  print ""
  print (verdict failures)
  return failures = 0

/-- The world once the report has been begun. -/
def begun (world : World) : World := world.noted (.printed "\nframestack doctor\n\n")

theorem run_eq (world : World) :
    run world =
      (checkFfmpeg >>= report (checkPlatform world.platformVersion)) (begun world) := by
  rw [run, run_bind_of_ok (run_print _ world), run_bind_of_ok (run_get _)]
  rfl

theorem run_actsOnSettings : ActsOnSettings run := by
  intro world
  rw [run_eq world, run_eq world.settled]
  exact checkFfmpeg_actsOnSettings.bind (report (checkPlatform world.platformVersion)) (begun world)

end Doctor

/-! ## Commands -/

namespace Program

open CommandLine (Choices Command Invocation Stop)

/-- A command whose product is what it prints. -/
def isQuiet : Command → Bool
  | .compile => true
  | .render => false
  | .demo => true
  | .doctor => false

/-- What a command does once it has settled the settings and how much is
logged. -/
def work (invocation : Invocation) : Job Unit :=
  match invocation.command with
  | .compile => do
      let root ← Scene.load invocation.scene
      display root invocation.choices.json
  | .render => do
      let root ← Scene.load invocation.scene
      renderAndPrint root
  | .demo => do
      let root ← ofExcept .composition (rootOf (sideBySideKeynotes invocation.choices.logo))
      display root invocation.choices.json
  | .doctor => do
      let healthy ← Doctor.run
      if !healthy then modify fun world => { world with status := 1 }

theorem perform_eq (invocation : Invocation) :
    perform invocation =
      configure invocation.choices (isQuiet invocation.command) >>= fun _ => work invocation := by
  obtain ⟨command, scene, choices⟩ := invocation
  cases command <;> rfl

/-- How much is logged once a command has begun. -/
def levelOf (choices : Choices) (quiet : Bool) (before : Level) : Level :=
  if choices.verbose then .debug else if quiet then .warn else before

/-- The world in which a command begins its work. -/
def ready (choices : Choices) (quiet : Bool) (world : World) : World :=
  { configured choices world with threshold := levelOf choices quiet world.threshold }

theorem run_configure_eq_ready (choices : Choices) (quiet : Bool) (world : World) :
    configure choices quiet world = .ok () (ready choices quiet world) := by
  rw [configure, run_bind_of_ok (Job.run_configure _ world), ready, levelOf]
  cases choices.verbose with
  | true => rfl
  | false =>
      cases quiet with
      | true => rfl
      | false => rfl

theorem run_perform (invocation : Invocation) (world : World) :
    perform invocation world =
      work invocation (ready invocation.choices (isQuiet invocation.command) world) := by
  rw [perform_eq, run_bind_of_ok (run_configure_eq_ready _ _ world)]

theorem conducted_display (root : Node) (json : Bool) :
    Conducted .consulting (display root json) := by
  refine .ite ?_ ?_
  · exact (Render.conducted_plan _ _).bind fun _ => conducted_note rfl
  · exact (Render.conducted_describe _ _).bind fun _ => conducted_note rfl

theorem conducted_renderAndPrint (root : Node) :
    Conducted .consulting (renderAndPrint root) :=
  (Render.conducted_run _ _).bind fun _ => conducted_note rfl

theorem conducted_work (invocation : Invocation) : Conducted .consulting (work invocation) := by
  obtain ⟨command, scene, choices⟩ := invocation
  cases command with
  | compile => exact (Scene.conducted_load scene).consulting.bind fun _ => conducted_display _ _
  | render => exact (Scene.conducted_load scene).consulting.bind conducted_renderAndPrint
  | demo => exact (conducted_ofExcept _ _).bind fun _ => conducted_display _ _
  | doctor =>
      have fails : Conducted .consulting (modify fun world => { world with status := 1 }) :=
        conducted_modify (fun _ => rfl) (fun _ => rfl) fun _ _ _ => rfl
      exact Doctor.conducted_run.bind fun _ => .ite fails (conducted_pure _)

/-- The settings of a command stay while it works. -/
theorem settings_perform (invocation : Invocation) (world : World) :
    (leaves (perform invocation) world).settings = some (settingsOf invocation.choices world) := by
  rw [leaves_eq (run_perform invocation world)]
  obtain ⟨_, allows⟩ := (conducted_work invocation).allowed (ready _ _ world)
  rcases allows.settings with same | ⟨_, filled⟩
  · exact same
  · exact filled

theorem exists_readText (path : String) (world : World) :
    ∃ outcome, readText path world = ending outcome world := by
  by_cases nullFree : NullFree path
  · have reads := Scene.run_readText nullFree world
    rw [reads]
    split
    · exact ⟨.ok _, rfl⟩
    · exact ⟨.error _, rfl⟩
  · obtain ⟨failure, refused⟩ := exists_refuseNullPath_refusal nullFree world
    exact ⟨.error failure, run_bind_of_error refused⟩

/-- A settings file changes nothing but the environment. -/
theorem run_loadEnvFile (path : String) (world : World) :
    ∃ environment, loadEnvFile path world = .ok () { world with environment } := by
  let adds (text : String) : Job Unit := modify fun world =>
    { world with environment := EnvFile.addMissing (EnvFile.read text) world.environment }
  have begins : (get >>= fun world => readText (world.expandHome path) >>= adds) world =
      (readText (world.expandHome path) >>= adds) world :=
    run_bind_of_ok (run_get world)
  obtain ⟨outcome, reads⟩ := exists_readText (world.expandHome path) world
  cases outcome with
  | error failure =>
      have fails := begins.trans (run_bind_of_error reads)
      exact ⟨world.environment, run_tryCatch_of_error fails⟩
  | ok text =>
      have succeeds := begins.trans (run_bind_of_ok reads)
      exact ⟨_, run_tryCatch_of_ok succeeds⟩

theorem conducted_stop {conduct : Conduct} (reason : Stop) :
    Conducted conduct (stop reason) := by
  have stops : Conducted conduct (fail (.stopped reason) : Job Unit) := conducted_fail _
  have complains : Conducted conduct (do
      if reason.complaint ≠ "" then note (.complained reason.complaint)
      fail (.stopped reason) : Job Unit) :=
    .ite ((conducted_note rfl).bind fun _ => stops) stops
  exact .ite ((conducted_note rfl).bind fun _ => complains) complains

end Program

end Montage
