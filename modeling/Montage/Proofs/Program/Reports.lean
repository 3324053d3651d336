import Montage.Proofs.Program.Conduct

/-!
# What commands tell the log

A command about a scene tells the path that it loads, then what has been planned, and
then, if it goes so far, what it runs.  These are all the records there are; the log
keeps those that it shows.
-/

namespace Montage

open Job (leaves leaves_eq leaves_of_ok leaves_of_error run_bind_of_ok run_bind_of_error)

/-! ## Worlds and what has been told in between -/

/-- Some records have been told on the way from one world to another. -/
structure World.Reports (before : World) (told : List Record) (after : World) : Prop where
  threshold : after.threshold = before.threshold
  settings : after.currentSettings = before.currentSettings
  records : after.records = before.records ++ before.threshold.kept told

namespace World

variable {before between after : World} {told more : List Record}

theorem Reports.refl (world : World) : world.Reports [] world :=
  ⟨rfl, rfl, (List.append_nil _).symm⟩

theorem Reports.trans (first : before.Reports told between)
    (second : between.Reports more after) : before.Reports (told ++ more) after where
  threshold := second.threshold.trans first.threshold
  settings := second.settings.trans first.settings
  records := by
    rw [second.records, first.records, first.threshold, Level.kept_append, List.append_assoc]

theorem reports_settled (world : World) : world.Reports [] world.settled :=
  ⟨rfl, rfl, (List.append_nil _).symm⟩

theorem reports_noted {event : Event} (effective : event.isRecord = false) (world : World) :
    world.Reports [] (world.noted event) :=
  ⟨rfl, rfl, (records_noted effective world).trans (List.append_nil _).symm⟩

theorem reports_logged (world : World) (level : Level) (message : String) :
    world.Reports [⟨level, message⟩] (world.logged level message) where
  threshold := by unfold logged; split <;> rfl
  settings := currentSettings_logged world level message
  records := records_logged world level message

end World

/-- A silent job tells nothing. -/
theorem Job.Conducted.reports {α : Type} {job : Job α} (conducted : Conducted .silent job)
    (before : World) : before.Reports [] (leaves job before) := by
  obtain ⟨told, silent, tells⟩ := conducted.exists_told before
  obtain ⟨threshold, records⟩ := tells before.threshold
  obtain ⟨_, allows⟩ := conducted.allowed before
  rw [silent rfl] at records
  exact ⟨threshold, allows.currentSettings, records⟩

/-! ## Loading -/

namespace Scene

/-- The record of a file that is loaded. -/
def loading (path : String) : Record := ⟨.info, "[SceneLoader] Loading " ++ Text.oneLine path⟩

theorem reports_foundAt (path : String) (world : World) :
    world.Reports [loading path] (foundAt path world) :=
  world.reports_logged _ _

theorem reports_load_of_names {world : World} {scene path : String}
    (names : Names world scene path) :
    world.Reports [loading path] (leaves (load scene) world) := by
  have reads : Job.Conducted .silent
      (Job.readValue path >>= fun document => Job.ofExcept .scene (read document)) :=
    (Job.conducted_readValue path).bind fun _ => Job.conducted_ofExcept _ _
  rw [leaves_eq (run_load_of_names names)]
  exact (reports_foundAt path world).trans (reads.reports _)

/-- Nothing is told of a scene that is not found. -/
theorem reports_load_of_no_name {world : World} {scene : String}
    (lost : ∀ path, ¬ Names world scene path) :
    world.Reports [] (leaves (load scene) world) := by
  have missing : locate scene world = .error (.sceneNotFound scene) world := by
    rw [run_locate]
    split
    · next stands => exact absurd (.direct stands) (lost _)
    · next absent =>
        split
        · next stands => exact absurd (.bundled absent stands) (lost _)
        · rfl
  have fails : load scene world = .error (.sceneNotFound scene) world := run_bind_of_error missing
  rw [leaves_of_error fails]
  exact .refl world

theorem Names.unique {world : World} {scene path other : String}
    (names : Names world scene path) (same : Names world scene other) : path = other := by
  cases names with
  | direct stands =>
      cases same with
      | direct _ => rfl
      | bundled absent _ => exact absurd stands absent
  | bundled absent _ =>
      cases same with
      | direct stands => exact absurd stands absent
      | bundled _ _ => rfl

theorem exists_load_of_describes {world : World} {scene : String} {root : Node}
    (describes : Describes world scene root) :
    ∃ path, Names world scene path ∧ load scene world = .ok root (foundAt path world) := by
  obtain ⟨document, @⟨path, bytes, names, found, value⟩, result⟩ := describes
  have same := leads_foundAt path world
  have reads := run_readValue names.nullFree (foundAt path world)
  rw [same.files, same.directory, found] at reads
  simp only [value] at reads
  refine ⟨path, names, ?_⟩
  rw [run_load_of_names names, run_bind_of_ok reads, result, Job.run_ofExcept_ok]

theorem Describes.unique {world : World} {scene : String} {root other : Node}
    (describes : Describes world scene root) (same : Describes world scene other) :
    root = other := by
  obtain ⟨_, loads, _⟩ := run_load_of_describes describes
  obtain ⟨_, loadsToo, _⟩ := run_load_of_describes same
  exact Option.some.inj ((Job.yields?_of_ok loads).symm.trans (Job.yields?_of_ok loadsToo))

theorem describes_of_load {world after : World} {scene : String} {root : Node}
    (loads : load scene world = .ok root after) :
    Describes world scene root ∧ ∃ path, Names world scene path ∧ after = foundAt path world := by
  rcases describes_or_unloadable world scene with ⟨other, describes⟩ | ⟨failure, why⟩
  · obtain ⟨path, names, found⟩ := exists_load_of_describes describes
    rw [found] at loads
    cases loads
    exact ⟨describes, path, names, rfl⟩
  · obtain ⟨_, fails, _⟩ := run_load_of_unloadable why
    rw [fails] at loads
    cases loads

end Scene

/-! ## Planning and running -/

namespace Render

/-- The records of a graph that has been planned. -/
def planning (graph : Graph) : List Record :=
  ⟨.info, summary graph⟩ :: ⟨.debug, listing graph⟩ ::
    graph.warnings.map fun warning => ⟨.warn, "[Composition] " ++ warning.message⟩

theorem reports_warned (world : World) (warnings : List Warning) :
    world.Reports
      (warnings.map fun warning => ⟨.warn, "[Composition] " ++ warning.message⟩)
      (warned world warnings) := by
  induction warnings generalizing world with
  | nil => exact .refl world
  | cons warning rest induction => exact (world.reports_logged .warn _).trans (induction _)

theorem reports_worldOf (graph : Graph) (world : World) :
    world.Reports (planning graph) (worldOf graph world) := by
  have summarised := world.reports_settled.trans (world.settled.reports_logged .info (summary graph))
  have listed := summarised.trans (World.reports_logged _ .debug (listing graph))
  exact listed.trans (reports_warned _ graph.warnings)

end Render

namespace Ffmpeg

/-- The record of the program that settings name. -/
def announcing (settings : Settings) : Record := ⟨.debug, announcement settings⟩

/-- The record of a program that is started. -/
def running (settings : Settings) (arguments : List String) : Record :=
  ⟨.debug, "[FFmpeg] " ++ settings.programName ++ " " ++ String.intercalate " " arguments⟩

theorem reports_announced (world : World) :
    world.Reports [announcing world.currentSettings] (announced world) :=
  world.reports_settled.trans (world.settled.reports_logged _ _)

/-- A run that concludes well does no more. -/
theorem conclude_eq_ok {name : String} {arguments : List String}
    {started : Except PathFault Outcome} {world after : World}
    (ends : conclude name arguments started world = .ok () after) : after = world := by
  have reported (message : String) (failure : Failure) (world : World) :
      (Job.log .error message >>= fun _ => Job.fail failure : Job Unit) world ≠ .ok () after := by
    rw [Job.run_log_fail]
    intro impossible
    cases impossible
  cases started with
  | error fault =>
      rw [conclude] at ends
      split at ends
      · exact absurd ends (reported _ _ _)
      · cases ends
  | ok outcome =>
      cases overflow : outcome.overflow? largestOutput with
      | some stream =>
          simp only [conclude, overflow] at ends
          exact absurd ends (reported _ _ _)
      | none =>
          simp only [conclude, overflow] at ends
          split at ends
          · exact absurd ends (reported _ _ _)
          · cases ends
            rfl

theorem reports_run {arguments : List String} {world after : World}
    (ran : run arguments world = .ok () after) :
    world.Reports [announcing world.currentSettings, running world.currentSettings arguments]
      after := by
  rw [run_eq rfl] at ran
  obtain ⟨started, requested, starts, ends⟩ := Job.exists_of_run_bind_eq_ok ran
  have silent : Job.Conducted .silent (Job.start world.currentSettings.programName arguments) :=
    Job.conducted_start _ _
  have requests := silent.reports (requesting arguments world)
  rw [leaves_of_ok starts, ← conclude_eq_ok ends] at requests
  have runs := (announced world).reports_logged .debug (running world.currentSettings arguments).message
  exact ((reports_announced world).trans runs).trans requests

end Ffmpeg

namespace Render

/-- The records of a file that is to be written, and of one that has been. -/
def rendering (path : String) : Record := ⟨.info, "[Composition] Rendering → " ++ Text.oneLine path⟩

def completing (path : String) : Record := ⟨.info, "[Composition] Complete: " ++ Text.oneLine path⟩

theorem reports_produce {path written : String} {arguments : List String} {world after : World}
    (produces : produce path arguments world = .ok written after) :
    written = path ∧
      world.Reports
        [rendering path, Ffmpeg.announcing world.currentSettings,
          Ffmpeg.running world.currentSettings arguments, completing path] after := by
  have begins := world.reports_logged .info ("[Composition] Rendering → " ++ Text.oneLine path)
  cases ran : Ffmpeg.run arguments (announced path world) with
  | error cause done =>
      rw [run_produce_of_error ran] at produces
      cases produces
  | ok nothing done =>
      rw [run_produce_of_ok ran] at produces
      cases produces
      have runs := Ffmpeg.reports_run ran
      rw [announced, World.currentSettings_logged] at runs
      exact ⟨rfl, (begins.trans runs).trans (World.reports_logged _ _ _)⟩

theorem reports_carryOut {planned : RenderPlan} {written : String} {world after : World}
    (carries : carryOut planned world = .ok written after) :
    written = outputIn world.directory planned ∧
      world.Reports
        [rendering (outputIn world.directory planned), Ffmpeg.announcing world.currentSettings,
          Ffmpeg.running world.currentSettings planned.arguments,
          completing (outputIn world.directory planned)] after := by
  rw [carryOut, run_bind_of_ok (Job.run_resolve planned.outputPath world)] at carries
  obtain ⟨_, made, makes, produces⟩ := Job.exists_of_run_bind_eq_ok carries
  have silent : Job.Conducted .silent
      (Job.makeDirectories (parentIn world.directory planned)) :=
    Job.conducted_makeDirectories _
  have making := silent.reports world
  rw [parentIn, leaves_of_ok makes] at making
  obtain ⟨same, reports⟩ := reports_produce produces
  rw [making.settings] at reports
  exact ⟨same, making.trans reports⟩

end Render

/-! ## Commands -/

namespace Program

open CommandLine (Choices)

/-- What a preview tells: nothing, if there is no file; no more than the path of the
file, if it comes to no plan; and otherwise its plan, and its program if it names
one. -/
inductive PreviewTold (scene : String) (json : Bool) (world : World) : List Record → Prop where
  | lost : (∀ path, ¬ Scene.Names world scene path) → PreviewTold scene json world []
  | unplanned {path : String} : Scene.Names world scene path →
      (∀ root graph, ¬ Ready scene world root graph) →
      PreviewTold scene json world [Scene.loading path]
  | planned {path : String} {root : Node} {graph : Graph} : Scene.Names world scene path →
      Ready scene world root graph →
      PreviewTold scene json world
        (Scene.loading path :: (Render.planning graph ++
          if json then [] else [Ffmpeg.announcing world.currentSettings]))

/-- What a render tells that ends well. -/
def renderTold (path : String) (graph : Graph) (world : World) : List Record :=
  let planned := Render.planOf graph Render.noOptions world.currentSettings
  let written := Render.outputIn world.directory planned
  Scene.loading path :: (Render.planning graph ++
    [Render.rendering written, Ffmpeg.announcing world.currentSettings,
      Ffmpeg.running world.currentSettings planned.arguments, Render.completing written])

theorem reports_display {root : Node} {graph : Graph} (compiled : root.compile = .ok graph)
    (json : Bool) (world : World) :
    world.Reports
      (Render.planning graph ++ if json then [] else [Ffmpeg.announcing world.currentSettings])
      (leaves (display root json) world) := by
  have plans := Render.reports_worldOf graph world
  have prints (line : String) (world : World) :
      world.Reports [] (world.noted (.printed (line ++ "\n"))) :=
    World.reports_noted rfl world
  cases json with
  | true =>
      have lists : display root true world = .ok () _ :=
        run_bind_of_ok (Render.run_plan compiled Render.noOptions world)
      rw [leaves_of_ok lists]
      exact plans.trans (prints _ _)
  | false =>
      have describes : display root false world = .ok () _ :=
        run_bind_of_ok (Render.run_describe_eq compiled Render.noOptions world)
      have announces := Ffmpeg.reports_announced (Render.worldOf graph world)
      rw [Render.currentSettings_worldOf] at announces
      rw [leaves_of_ok describes]
      exact plans.trans (announces.trans (prints _ _))

theorem reports_display_of_error {root : Node} {error : CompositionError}
    (fault : root.compile = .error error) (json : Bool) (world : World) :
    world.Reports [] (leaves (display root json) world) := by
  have unplanned := Render.run_plan_of_error fault Render.noOptions world
  have fails : display root json world = .error (.composition error) world.settled := by
    rw [display]
    cases json with
    | true => exact run_bind_of_error unplanned
    | false => exact run_bind_of_error (run_bind_of_error unplanned)
  rw [leaves_of_error fails]
  exact world.reports_settled

/-- Whatever becomes of a preview, this is what it tells. -/
theorem exists_previewTold (scene : String) (choices : Choices) (world : World) :
    ∃ told, PreviewTold scene choices.json world told ∧
      world.Reports told (leaves (work ⟨.compile, scene, choices⟩) world) := by
  let json := choices.json
  by_cases named : ∃ path, Scene.Names world scene path
  · obtain ⟨path, names⟩ := named
    have loading := Scene.reports_load_of_names names
    cases loaded : Scene.load scene world with
    | error failure between =>
        have fails : work ⟨.compile, scene, choices⟩ world = .error failure between :=
          run_bind_of_error loaded
        rw [leaves_of_error loaded] at loading
        refine ⟨_, .unplanned names ?_, by rwa [leaves_of_error fails]⟩
        rintro root graph ⟨describes, _⟩
        obtain ⟨_, _, loads⟩ := Scene.exists_load_of_describes describes
        rw [loaded] at loads
        cases loads
    | ok root between =>
        have displays : work ⟨.compile, scene, choices⟩ world = display root json between :=
          run_bind_of_ok loaded
        rw [leaves_of_ok loaded] at loading
        rw [leaves_eq displays]
        have describes := (Scene.describes_of_load loaded).1
        cases compiled : root.compile with
        | ok graph =>
            have shown := reports_display compiled json between
            rw [loading.settings] at shown
            exact ⟨_, .planned names ⟨describes, compiled⟩, loading.trans shown⟩
        | error error =>
            have hidden := reports_display_of_error compiled json between
            refine ⟨_, .unplanned names ?_, loading.trans hidden⟩
            rintro other graph ⟨same, compiles⟩
            obtain ⟨_, _, loads⟩ := Scene.exists_load_of_describes same
            rw [loaded] at loads
            cases loads
            rw [compiled] at compiles
            cases compiles
  · have lost : ∀ path, ¬ Scene.Names world scene path := not_exists.mp named
    have nothing := Scene.reports_load_of_no_name lost
    cases loaded : Scene.load scene world with
    | error failure between =>
        have fails : work ⟨.compile, scene, choices⟩ world = .error failure between :=
          run_bind_of_error loaded
        rw [leaves_of_error loaded] at nothing
        exact ⟨[], .lost lost, by rwa [leaves_of_error fails]⟩
    | ok root between =>
        obtain ⟨_, path, names, _⟩ := Scene.describes_of_load loaded
        exact absurd names (lost path)

/-- A render that ends well has told of all that it has done. -/
theorem exists_renderTold {scene : String} {choices : Choices} {world after : World}
    (renders : work ⟨.render, scene, choices⟩ world = .ok () after) :
    ∃ path root graph, Scene.Names world scene path ∧ Ready scene world root graph ∧
      world.Reports (renderTold path graph world) after := by
  obtain ⟨root, between, loads, rest⟩ := Job.exists_of_run_bind_eq_ok renders
  obtain ⟨describes, path, names, rfl⟩ := Scene.describes_of_load loads
  obtain ⟨written, done, runs, prints⟩ := Job.exists_of_run_bind_eq_ok rest
  rw [Render.run_eq] at runs
  obtain ⟨planned, ready, plans, carries⟩ := Job.exists_of_run_bind_eq_ok runs
  cases compiled : root.compile with
  | error error =>
      rw [Render.run_plan_of_error compiled] at plans
      cases plans
  | ok graph =>
      rw [Render.run_plan compiled] at plans
      cases plans
      cases prints
      have found := Scene.reports_foundAt path world
      have planning := Render.reports_worldOf graph (Scene.foundAt path world)
      have leads := (Scene.leads_foundAt path world).trans
        (Render.leads_worldOf graph (Scene.foundAt path world))
      obtain ⟨_, carrying⟩ := Render.reports_carryOut carries
      rw [planning.settings, found.settings, leads.directory] at carrying
      have printed : done.Reports [] (done.noted (.printed (written ++ "\n"))) :=
        World.reports_noted rfl done
      exact ⟨path, root, graph, names, ⟨describes, compiled⟩,
        found.trans (planning.trans (carrying.trans printed))⟩

end Program

end Montage
