import Montage.Proofs.FilterGraph.Script
import Montage.Proofs.Host.Effects
import Montage.Render

/-!
# Planned renders

Planning settles the settings and logs; otherwise it leaves the world as it
is.  It comes to a plan exactly if the composition compiles, and the plan
depends on the graph, the options and the settings alone.
-/

namespace Montage

/-! ## Plans -/

namespace Render

/-- Besides its paths, a render is given four options, an expression and a
label. -/
theorem forall_mem_arguments_iff {Holds : String → Prop} {graph : Graph}
    (options : ∀ option ∈ ["-y", "-i", "-filter_complex", "-map"], Holds option)
    (expressions : Holds (String.intercalate ";" (graph.completed.filters.map Filter.text)))
    (label : Holds graph.completed.output.label) (overwrite : Bool) (outputPath : String) :
    (∀ argument ∈ arguments graph overwrite outputPath, Holds argument) ↔
      (∀ path ∈ graph.inputs, Holds path) ∧ Holds outputPath := by
  have leave : ∀ argument ∈ if overwrite then ["-y"] else [], Holds argument := by
    intro argument member
    cases overwrite with
    | true => exact options argument (by rw [List.mem_singleton.mp member]; decide)
    | false => cases member
  have inputs : (∀ argument ∈ graph.inputs.flatMap (fun path => ["-i", path]),
      Holds argument) ↔ ∀ path ∈ graph.inputs, Holds path := by
    simp only [List.forall_mem_flatMap, List.forall_mem_cons, List.not_mem_nil,
      false_implies, implies_true, and_true, options "-i" (by decide), true_and]
  have fixed : ∀ argument ∈
      ["-filter_complex", String.intercalate ";" (graph.completed.filters.map Filter.text),
        "-map", graph.completed.output.label], Holds argument := by
    simp only [List.forall_mem_cons]
    exact ⟨options _ (by decide), expressions, options _ (by decide), label,
      fun _ member => by cases member⟩
  rw [arguments, Graph.arguments_eq, List.forall_mem_append, List.forall_mem_append,
    List.forall_mem_append, inputs, List.forall_mem_singleton]
  exact ⟨fun ⟨⟨_, paths, _⟩, output⟩ => ⟨paths, output⟩,
    fun ⟨paths, output⟩ => ⟨⟨leave, paths, fixed⟩, output⟩⟩

theorem nullFree_arguments {graph : Graph} {outputPath : String}
    (inputsFree : ∀ path ∈ graph.inputs, NullFree path) (outputFree : NullFree outputPath)
    (overwrite : Bool) : ∀ argument ∈ arguments graph overwrite outputPath, NullFree argument := by
  refine (forall_mem_arguments_iff (by decide) ?_ ?_ _ _).mpr ⟨inputsFree, outputFree⟩
  · apply NullFree.intercalate (by decide)
    intro text listed
    obtain ⟨filter, _, rfl⟩ := List.mem_map.mp listed
    exact filter.not_mem_text rfl (by decide) (by decide)
  · exact graph.completed.output.not_mem_label rfl (by decide) (by decide)

def planOf (graph : Graph) (options : RenderOptions) (settings : Settings) : RenderPlan :=
  let outputPath := options.outputPath.getD settings.outputPath
  ⟨graph, arguments graph (options.overwrite.getD settings.overwrite) outputPath, outputPath⟩

def warned (world : World) (warnings : List Warning) : World :=
  warnings.foldl
    (fun before warning => before.logged .warn ("[Composition] " ++ warning.message)) world

/-- The world once a graph has been planned. -/
def worldOf (graph : Graph) (world : World) : World :=
  warned ((world.settled.logged .info (summary graph)).logged .debug (listing graph))
    graph.warnings

theorem run_logWarnings (warnings : List Warning) (world : World) :
    logWarnings warnings world = .ok () (warned world warnings) := by
  induction warnings generalizing world with
  | nil => rfl
  | cons warning rest induction =>
      rw [logWarnings, Job.run_bind_of_ok (Job.run_log_eq_logged _ _ _), induction]
      rfl

theorem currentSettings_warned (world : World) (warnings : List Warning) :
    (warned world warnings).currentSettings = world.currentSettings := by
  induction warnings generalizing world with
  | nil => rfl
  | cons warning rest induction =>
      rw [warned, List.foldl_cons, ← warned, induction, World.currentSettings_logged]

@[simp] theorem currentSettings_worldOf (graph : Graph) (world : World) :
    (worldOf graph world).currentSettings = world.currentSettings := by
  simp [worldOf, currentSettings_warned]

theorem run_plan {root : Node} {graph : Graph} (compiled : root.compile = .ok graph)
    (options : RenderOptions) (world : World) :
    plan root options world =
      .ok (planOf graph options world.currentSettings) (worldOf graph world) := by
  have compiles (world : World) :
      Job.ofExcept Failure.composition root.compile world = .ok graph world := by
    rw [compiled, Job.run_ofExcept_ok]
  rw [plan, Job.run_bind_of_ok (Job.run_settings world), Job.run_bind_of_ok (compiles _),
    Job.run_bind_of_ok (Job.run_log_eq_logged _ _ _),
    Job.run_bind_of_ok (Job.run_log_eq_logged _ _ _),
    Job.run_bind_of_ok (run_logWarnings _ _)]
  rfl

/-- What is at fault in a composition is found before anything is logged. -/
theorem run_plan_of_error {root : Node} {error : CompositionError}
    (fault : root.compile = .error error) (options : RenderOptions) (world : World) :
    plan root options world = .error (.composition error) world.settled := by
  rw [plan, Job.run_bind_of_ok (Job.run_settings world)]
  rw [fault]
  exact Job.run_bind_of_error (Job.run_ofExcept_error _ _ _)

theorem leads_warned (world : World) (warnings : List Warning) :
    world.Leads [] (warned world warnings) := by
  induction warnings generalizing world with
  | nil => exact .refl world
  | cons warning rest induction => exact (world.leads_logged .warn _).trans (induction _)

theorem leads_worldOf (graph : Graph) (world : World) : world.Leads [] (worldOf graph world) := by
  have summarised := world.leads_settled.logged .info (summary graph)
  have listed := summarised.logged .debug (listing graph)
  exact listed.trans (leads_warned _ graph.warnings)

end Render

/-! ## The program -/

/-- The program that settings name: the standard one where they name none. -/
def Settings.programName (settings : Settings) : String :=
  if settings.program = "" then defaultProgram else settings.program

/-- The record that tells where a program comes from. -/
def Ffmpeg.announcement (settings : Settings) : String :=
  if settings.program ≠ "" ∧ settings.program ≠ Settings.defaultProgram then
    "FFmpeg: using FFMPEG_PATH config: " ++ settings.program
  else "FFmpeg: using system PATH"

def Ffmpeg.announced (world : World) : World :=
  world.settled.logged .debug (announcement world.currentSettings)

theorem Ffmpeg.run_program (world : World) :
    program world = .ok world.currentSettings.programName (announced world) := by
  rw [program, Job.run_bind_of_ok (Job.run_settings world), announced, announcement]
  split
  · next named =>
      rw [Job.run_bind_of_ok (Job.run_log_eq_logged _ _ _), Settings.programName,
        if_neg named.1]
      rfl
  · next unnamed =>
      have standard : world.currentSettings.programName = Settings.defaultProgram := by
        rw [Settings.programName]
        split
        · rfl
        · next nonempty => exact Decidable.byContradiction fun other => unnamed ⟨nonempty, other⟩
      rw [Job.run_bind_of_ok (Job.run_log_eq_logged _ _ _), standard]
      rfl

theorem Ffmpeg.leads_announced (world : World) : world.Leads [] (announced world) :=
  world.leads_settled.logged _ _

/-- Describing a render has no effect but log records. -/
theorem Render.run_describe_eq {root : Node} {graph : Graph} (compiled : root.compile = .ok graph)
    (options : RenderOptions) (world : World) :
    describe root options world =
      .ok (CommandLine.format world.currentSettings.programName
        (planOf graph options world.currentSettings).arguments)
        (Ffmpeg.announced (worldOf graph world)) := by
  have named := Ffmpeg.run_program (worldOf graph world)
  rw [currentSettings_worldOf] at named
  rw [describe, Job.run_bind_of_ok (run_plan compiled options world),
    Job.run_bind_of_ok named]
  rfl

theorem Render.run_describe {root : Node} {graph : Graph} (compiled : root.compile = .ok graph)
    (options : RenderOptions) (world : World) :
    ∃ after,
      Ffmpeg.program (worldOf graph world) = .ok world.currentSettings.programName after ∧
      describe root options world =
        .ok (CommandLine.format world.currentSettings.programName
          (planOf graph options world.currentSettings).arguments) after := by
  have named := Ffmpeg.run_program (worldOf graph world)
  rw [currentSettings_worldOf] at named
  exact ⟨_, named, run_describe_eq compiled options world⟩

end Montage
