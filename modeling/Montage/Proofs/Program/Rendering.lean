import Montage.Proofs.Program.Preparation

/-!
# Rendering a scene

Everything that can be found out about a scene is found out before a render
requests anything.  After that only two things can fail: its directory, and its
program, which is run once at most.
-/

namespace Montage.Program

open CommandLine (Choices)

/-! ## Texts that are handed over -/

/-- Nothing that a render is given has a null character in it: its choices, its
environment, the directory it runs in, and the media paths of its scene. -/
structure NullFreeTexts (scene : String) (choices : Choices) (world : World) : Prop where
  program : ∀ path ∈ choices.program, NullFree path
  output : ∀ path ∈ choices.output, NullFree path
  environment : ∀ name, ∀ value ∈ world.environment.get? name, NullFree value
  directory : ∀ name ∈ world.directory, NullFree name
  media : ∀ root, Scene.Describes world scene root → ∀ path ∈ root.paths, NullFree path

section

variable {scene : String} {choices : Choices} {world : World} {root : Node} {graph : Graph}
  (texts : NullFreeTexts scene choices world)

include texts

theorem NullFreeTexts.outputPath : NullFree (settingsOf choices world).outputPath :=
  Settings.nullFree_textSetting texts.output (texts.environment "OUTPUT_PATH") (by decide)

theorem NullFreeTexts.programName : NullFree (settingsOf choices world).programName := by
  rw [Settings.programName]
  split
  · decide
  · exact Settings.nullFree_textSetting texts.program (texts.environment "FFMPEG_PATH") (by decide)

theorem NullFreeTexts.accepts (ready : Ready scene world root graph) :
    Job.Accepts (settingsOf choices world).programName (planOf choices world graph).arguments where
  nonempty := by
    rw [Settings.programName]
    split
    · decide
    · assumption
  name := texts.programName
  arguments := by
    apply Render.nullFree_arguments _ texts.outputPath
    rw [(compile_eq_ok_iff.mp ready.2).inputs_eq]
    exact texts.media root ready.1

theorem NullFreeTexts.parent (graph : Graph) :
    NullFree (Render.parentIn world.directory (planOf choices world graph)) := by
  apply Path.nullFree_ofLocation
  intro name member
  have resolved := List.dropLast_subset _ member
  exact Path.nullFree_of_mem_resolve texts.directory texts.outputPath resolved

end

/-! ## After a render has been planned -/

section

variable {scene : String} {choices : Choices} {world : World} {root : Node} {graph : Graph}
  {files : FileSystem} (ready : Ready scene world root graph)
  (texts : NullFreeTexts scene choices world)

include ready texts

theorem run_render_of_obstacle {obstacle : Obstacle}
    (blocked : world.files.makeDirectories world.directory
      (Render.parentIn world.directory (planOf choices world graph)) = (files, some obstacle)) :
    ∃ after, render scene choices world = .error (.noDirectory obstacle) after ∧
      ((configured choices world).withFiles files).Leads
        [.directoryRequested (Render.parentIn world.directory (planOf choices world graph))]
        after := by
  obtain ⟨planned, renders, leads⟩ := run_render_of_ready ready choices
  obtain ⟨after, fails, requests⟩ :=
    Render.run_carryOut_of_obstacle leads (texts.parent graph) blocked
  exact ⟨after, renders.trans (Job.run_bind_of_error fails), requests⟩

variable
  (made : world.files.makeDirectories world.directory
    (Render.parentIn world.directory (planOf choices world graph)) = (files, none))

include made

theorem run_render_of_succeeds
    (succeeds : Ffmpeg.Succeeds (settingsOf choices world).programName
      (planOf choices world graph).arguments (world.withFiles files)) :
    ∃ after, render scene choices world = .ok () after ∧
      ((configured choices world).withFiles files).Leads
        (Render.requests (settingsOf choices world).programName (planOf choices world graph)
            (world.withFiles files) ++
          [.printed (Render.outputIn world.directory (planOf choices world graph) ++ "\n")])
        after := by
  obtain ⟨planned, renders, leads⟩ := run_render_of_ready ready choices
  have same := (sameHost_configured choices world).withFiles files
  obtain ⟨written, carries, requests⟩ :=
    Render.run_carryOut_of_succeeds leads (texts.parent graph) made
      (congrArg Settings.programName (currentSettings_configured choices world))
      (texts.accepts ready) (succeeds.sameHost same)
  exact ⟨_, renders.trans (Job.run_bind_of_ok carries), requests.noted _ rfl⟩

theorem run_render_of_fails {cause : Failure}
    (fails : Ffmpeg.Fails (settingsOf choices world).programName
      (planOf choices world graph).arguments (world.withFiles files) cause) :
    ∃ after, render scene choices world = .error (.render cause) after ∧
      ((configured choices world).withFiles files).Leads
        (Render.requests (settingsOf choices world).programName (planOf choices world graph)
          (world.withFiles files)) after := by
  obtain ⟨planned, renders, leads⟩ := run_render_of_ready ready choices
  have same := (sameHost_configured choices world).withFiles files
  obtain ⟨after, carries, requests⟩ :=
    Render.run_carryOut_of_fails leads (texts.parent graph) made
      (congrArg Settings.programName (currentSettings_configured choices world))
      (texts.accepts ready) (fails.sameHost same)
  exact ⟨after, renders.trans (Job.run_bind_of_error carries), requests⟩

end

/-! ## Renders as a whole -/

/-- What a render finds out before it requests anything: its program and its
plan. -/
def prepare (scene : String) (choices : Choices) : Job (String × RenderPlan) :=
  withScene scene choices false fun root => do
    let planned ← Render.plan root Render.noOptions
    let program ← Ffmpeg.program
    return (program, planned)

theorem prepare_of_ready {scene : String} {world : World} {root : Node} {graph : Graph}
    (ready : Ready scene world root graph) (choices : Choices) :
    Job.yields? (prepare scene choices) world =
      some ((settingsOf choices world).programName, planOf choices world graph) := by
  obtain ⟨describes, compiled⟩ := ready
  obtain ⟨loaded, loads, leads⟩ := run_withScene_of_describes choices false
    (fun root => do
      let planned ← Render.plan root Render.noOptions
      let program ← Ffmpeg.program
      return (program, planned)) describes
  have plans := Render.run_plan compiled Render.noOptions loaded
  have names := Ffmpeg.run_program (Render.worldOf graph loaded)
  rw [Render.currentSettings_worldOf, leads.settings] at names
  rw [leads.settings] at plans
  rw [Job.run_bind_of_ok plans, Job.run_bind_of_ok names] at loads
  exact Job.yields?_of_ok loads

theorem noDirectory_message (obstacle : Obstacle) :
    (Failure.noDirectory obstacle).message =
      obstacle.fault.code ++ ": " ++ obstacle.fault.words ++ ", " ++
        ("mkdir '" ++ obstacle.path ++ "'") := rfl

/-- The message begins with the code of the fault. -/
theorem noDirectory_message_ne (obstacle : Obstacle) (reason : String) :
    (Failure.noDirectory obstacle).message ≠ "Render failed: " ++ reason := by
  intro same
  obtain ⟨path, fault⟩ := obstacle
  rw [noDirectory_message] at same
  cases fault <;> simp [PathFault.code, ← String.toList_inj] at same

/-- A render that comes to no plan leaves nothing behind.  One that comes to a
plan requests its directory, and starts nothing if that cannot be made;
otherwise it requests its program once, with the arguments of the plan, and
ends as that program does. -/
theorem render_leaves_nothing_or_runs_once {scene : String} {choices : Choices} {world : World}
    (texts : NullFreeTexts scene choices world) :
    (∀ failure, Unready scene world failure →
      ∃ after, render scene choices world = .error failure after ∧
        after.files = world.files ∧ after.effects = world.effects) ∧
    ((∀ failure, ¬ Unready scene world failure) →
      ∃ program planned, Job.yields? (prepare scene choices) world = some (program, planned) ∧
        (∀ files obstacle,
          world.files.makeDirectories world.directory
              (Render.parentIn world.directory planned) = (files, some obstacle) →
            (∃ after, render scene choices world = .error (.noDirectory obstacle) after ∧
              after.files = files ∧
              after.effects =
                world.effects ++
                  [.directoryRequested (Render.parentIn world.directory planned)]) ∧
            ∀ reason, (Failure.noDirectory obstacle).message ≠ "Render failed: " ++ reason) ∧
        ∀ files,
          world.files.makeDirectories world.directory
              (Render.parentIn world.directory planned) = (files, none) →
            (Ffmpeg.Succeeds program planned.arguments (world.withFiles files) ↔
              ∃ after, render scene choices world = .ok () after ∧
                after.effects =
                  world.effects ++
                    (Render.requests program planned (world.withFiles files) ++
                      [.printed (Render.outputIn world.directory planned ++ "\n")])) ∧
            (¬ Ffmpeg.Succeeds program planned.arguments (world.withFiles files) ↔
              ∃ cause after, Ffmpeg.Fails program planned.arguments (world.withFiles files) cause ∧
                render scene choices world = .error (.render cause) after ∧
                (Failure.render cause).message = "Render failed: " ++ cause.message ∧
                after.effects =
                  world.effects ++
                    Render.requests program planned (world.withFiles files))) := by
  constructor
  · intro failure why
    obtain ⟨after, renders, leads⟩ := run_render_of_unready why choices
    refine ⟨after, renders, leads.files, ?_⟩
    rw [leads.effects, List.append_nil]
    rfl
  · intro nothing
    obtain ⟨root, graph, ready⟩ : ∃ root graph, Ready scene world root graph := by
      rcases ready_or_unready scene world with ready | ⟨failure, unready⟩
      · exact ready
      · exact absurd unready (nothing failure)
    refine ⟨_, _, prepare_of_ready ready choices, ?_, ?_⟩
    · intro files obstacle blocked
      obtain ⟨after, renders, leads⟩ := run_render_of_obstacle ready texts blocked
      exact ⟨⟨after, renders, leads.files, leads.effects⟩, noDirectory_message_ne obstacle⟩
    · intro files made
      rcases Ffmpeg.succeeds_or_fails (settingsOf choices world).programName
          (planOf choices world graph).arguments (world.withFiles files) with
        succeeds | ⟨cause, fails⟩
      · obtain ⟨after, renders, leads⟩ := run_render_of_succeeds ready texts made succeeds
        constructor
        · exact ⟨fun _ => ⟨after, renders, leads.effects⟩, fun _ => succeeds⟩
        · constructor
          · intro failed
            exact absurd succeeds failed
          · rintro ⟨cause, other, _, failed, _⟩
            rw [renders] at failed
            cases failed
      · obtain ⟨after, renders, leads⟩ := run_render_of_fails ready texts made fails
        constructor
        · constructor
          · intro succeeds
            exact absurd succeeds fails.not_succeeds
          · rintro ⟨other, succeeded, _⟩
            rw [renders] at succeeded
            cases succeeded
        · exact ⟨fun _ => ⟨cause, after, fails, renders, rfl, leads.effects⟩,
            fun _ => fails.not_succeeds⟩

/-! A render that writes into a directory which is not there yet. -/

def clipText : String := "\x7b\"type\":\"resource\",\"path\":\"a.mp4\"\x7d"

def clipFiles : FileSystem :=
  ((FileSystem.empty.add ["clip.json"]
        (.file (clipText.toList.map fun character => character.toNat.toUInt8))).add
      ["bin"] .directory).add
    ["bin", "ffmpeg"] (.program fun _ => ⟨"", "", 0⟩)

def clipWorld : World := { World.empty with files := clipFiles }

def clipChoices : Choices := { Choices.none with output := some "out/clip.mp4" }

def clipArguments : List String :=
  ["-y", "-i", "a.mp4", "-filter_complex", "[0]null[s0]", "-map", "[s0]", "out/clip.mp4"]

def clipPlan : RenderPlan := ⟨⟨["a.mp4"], [], .input 0, []⟩, clipArguments, "out/clip.mp4"⟩

theorem clip_render_runs_once :
    NullFreeTexts "clip.json" clipChoices clipWorld ∧
      ∃ after, render "clip.json" clipChoices clipWorld = .ok () after ∧
        after.effects =
          [.directoryRequested "/out", .directoryMade "/out",
            .programRequested "ffmpeg" clipArguments,
            .started ["bin", "ffmpeg"] clipArguments,
            .printed "/out/clip.mp4\n"] := by
  have texts : NullFreeTexts "clip.json" clipChoices clipWorld := by
    refine ⟨by decide, by decide, ?_, by decide, ?_⟩
    · intro name value set
      cases set
    · intro root describes
      obtain ⟨after, loads, _⟩ := Scene.run_load_of_describes describes
      have loaded : (Job.yields? (Scene.load "clip.json") clipWorld).map Node.paths =
          some ["a.mp4"] := by decide +kernel
      rw [Job.yields?_of_ok loads] at loaded
      rw [Option.some.inj loaded]
      decide
  have nothing (failure : Failure) : ¬ Unready "clip.json" clipWorld failure := by
    intro why
    obtain ⟨after, fails, _⟩ := run_render_of_unready why clipChoices
    have rendered : Job.yields? (render "clip.json" clipChoices) clipWorld = some () := by
      decide +kernel
    rw [Job.yields?_of_error fails] at rendered
    cases rendered
  have prepared : Job.yields? (prepare "clip.json" clipChoices) clipWorld =
      some ("ffmpeg", clipPlan) := by decide +kernel
  obtain ⟨program, planned, prepares, _, runs⟩ :=
    (render_leaves_nothing_or_runs_once texts).2 nothing
  rw [prepared] at prepares
  cases prepares
  let making := clipWorld.files.makeDirectories clipWorld.directory
    (Render.parentIn clipWorld.directory clipPlan)
  have unblocked : making.2 = none := by decide +kernel
  have succeeds : Ffmpeg.Succeeds "ffmpeg" clipArguments (clipWorld.withFiles making.1) := by
    decide +kernel
  have requests : Render.requests "ffmpeg" clipPlan (clipWorld.withFiles making.1) =
      [.directoryRequested "/out", .directoryMade "/out",
        .programRequested "ffmpeg" clipArguments,
        .started ["bin", "ffmpeg"] clipArguments] := by decide +kernel
  have written : Render.outputIn clipWorld.directory clipPlan = "/out/clip.mp4" := by
    decide +kernel
  obtain ⟨after, renders, effects⟩ := (runs making.1 (Prod.ext rfl unblocked)).1.mp succeeds
  rw [requests, written] at effects
  exact ⟨texts, after, renders, effects⟩

end Montage.Program
