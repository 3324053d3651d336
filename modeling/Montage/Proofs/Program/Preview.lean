import Montage.Proofs.Program.Rendering

/-!
# Showing a render

What is shown of a render are the very arguments with which its program is
requested, as a JSON list or behind the name of that program.  Nothing is shown
exactly if the render fails before it has requested anything.
-/

namespace Montage.Program

open CommandLine (Choices)

/-- The line that shows a plan. -/
def lineOf (json : Bool) (program : String) (arguments : List String) : String :=
  if json then (Value.list (arguments.map Value.text)).write
  else CommandLine.format program arguments

theorem run_display {root : Node} {graph : Graph} (compiled : root.compile = .ok graph)
    (json : Bool) (world : World) :
    ∃ after, display root json world = .ok () after ∧
      world.Leads
        [.printed (lineOf json world.currentSettings.programName
          (Render.planOf graph Render.noOptions world.currentSettings).arguments ++ "\n")]
        after := by
  cases json with
  | true =>
      have plans := Render.run_plan compiled Render.noOptions world
      exact ⟨_, Job.run_bind_of_ok plans, (Render.leads_worldOf graph world).noted _ rfl⟩
  | false =>
      have describes := Render.run_describe_eq compiled Render.noOptions world
      have leads := (Render.leads_worldOf graph world).trans (Ffmpeg.leads_announced _)
      exact ⟨_, Job.run_bind_of_ok describes, leads.noted _ rfl⟩

theorem run_compile_of_ready {scene : String} {world : World} {root : Node} {graph : Graph}
    (ready : Ready scene world root graph) (choices : Choices) :
    ∃ after, compile scene choices world = .ok () after ∧
      (configured choices world).Leads
        [.printed (lineOf choices.json (settingsOf choices world).programName
          (planOf choices world graph).arguments ++ "\n")] after := by
  obtain ⟨describes, compiled⟩ := ready
  obtain ⟨loaded, loads, leads⟩ :=
    run_withScene_of_describes choices true (display · choices.json) describes
  obtain ⟨after, displays, prints⟩ := run_display compiled choices.json loaded
  rw [leads.settings] at prints
  exact ⟨after, loads.trans displays, leads.trans prints⟩

/-- What a render requests if its scene has a graph: its directory first, and
no program but with the arguments of its plan. -/
theorem exists_effects_render {scene : String} {world : World} {root : Node} {graph : Graph}
    (ready : Ready scene world root graph) (choices : Choices) :
    ∃ path more,
      (Job.leaves (render scene choices) world).effects =
        world.effects ++ .directoryRequested path :: more ∧
      ∀ name arguments, .programRequested name arguments ∈ more →
        name = (settingsOf choices world).programName ∧
        arguments = (planOf choices world graph).arguments := by
  obtain ⟨planned, renders, leads⟩ := run_render_of_ready ready choices
  obtain ⟨more, effects, requested⟩ :=
    Render.exists_effects_carryOut (planOf choices world graph) planned
  obtain ⟨lines, prints⟩ :=
    Job.exists_effects_print (Render.carryOut (planOf choices world graph)) planned
  rw [← Job.leaves_eq renders, effects, leads.effects, List.append_nil] at prints
  refine ⟨_, more ++ lines.map Event.printed, prints.trans (List.append_assoc _ _ _), ?_⟩
  intro name arguments member
  rw [leads.settings] at requested
  rcases List.mem_append.mp member with inMore | inLines
  · exact requested name arguments inMore
  · obtain ⟨line, _, impossible⟩ := List.mem_map.mp inLines
    cases impossible

/-- A render and its preview are of one mind.  Whatever arguments the program of
a render is requested with are those that are shown, and nothing is shown
exactly if the render fails before it requests its directory, by the same
failure. -/
theorem compile_shows_what_render_runs (scene : String) (choices : Choices) (world : World) :
    ∃ added,
      (Job.leaves (render scene choices) world).effects = world.effects ++ added ∧
      (∀ program arguments, .programRequested program arguments ∈ added →
        (∃ after, compile scene { choices with json := true } world = .ok () after ∧
          after.effects = world.effects ++
            [.printed ((Value.list (arguments.map Value.text)).write ++ "\n")]) ∧
        (∃ after, compile scene { choices with json := false } world = .ok () after ∧
          after.effects = world.effects ++
            [.printed (CommandLine.format program arguments ++ "\n")])) ∧
      ∀ json failure,
        (∃ after, compile scene { choices with json } world = .error failure after) ↔
          (∃ after, render scene choices world = .error failure after) ∧
            ∀ path, .directoryRequested path ∉ added := by
  rcases ready_or_unready scene world with ⟨root, graph, ready⟩ | ⟨why, unready⟩
  · obtain ⟨path, more, effects, requested⟩ := exists_effects_render ready choices
    refine ⟨_, effects, ?_, ?_⟩
    · intro program arguments member
      rcases List.mem_cons.mp member with impossible | member
      · cases impossible
      obtain ⟨rfl, rfl⟩ := requested program arguments member
      obtain ⟨asList, lists, leads⟩ :=
        run_compile_of_ready ready { choices with json := true }
      obtain ⟨asLine, formats, others⟩ :=
        run_compile_of_ready ready { choices with json := false }
      exact ⟨⟨asList, lists, leads.effects⟩, ⟨asLine, formats, others.effects⟩⟩
    · intro json failure
      constructor
      · rintro ⟨after, fails⟩
        obtain ⟨done, compiles, _⟩ := run_compile_of_ready ready { choices with json }
        rw [compiles] at fails
        cases fails
      · rintro ⟨_, nothing⟩
        exact absurd List.mem_cons_self (nothing path)
  · obtain ⟨after, renders, leads⟩ := run_render_of_unready unready choices
    refine ⟨[], ?_, ?_, ?_⟩
    · rw [Job.leaves_of_error renders]
      exact leads.effects
    · intro program arguments member
      cases member
    · intro json failure
      obtain ⟨done, compiles, _⟩ := run_compile_of_unready unready { choices with json }
      constructor
      · rintro ⟨other, fails⟩
        rw [compiles] at fails
        cases fails
        exact ⟨⟨after, renders⟩, fun _ => List.not_mem_nil⟩
      · rintro ⟨⟨other, fails⟩, _⟩
        rw [renders] at fails
        cases fails
        exact ⟨done, compiles⟩

/-- A clip is rendered by a program that is started with the arguments that are shown. -/
theorem clip_preview_shows_started_arguments :
    .started ["bin", "ffmpeg"] clipArguments ∈
        (Job.leaves (render "clip.json" clipChoices) clipWorld).effects ∧
      (∃ after, compile "clip.json" { clipChoices with json := true } clipWorld = .ok () after ∧
        after.effects =
          [.printed ("[\"-y\",\"-i\",\"a.mp4\",\"-filter_complex\",\"[0]null[s0]\"," ++
            "\"-map\",\"[s0]\",\"out/clip.mp4\"]\n")]) ∧
      ∃ after, compile "clip.json" { clipChoices with json := false } clipWorld = .ok () after ∧
        after.effects =
          [.printed ("ffmpeg -y -i \"a.mp4\" -filter_complex \"[0]null[s0]\" -map \"[s0]\" " ++
            "\"out/clip.mp4\"\n")] := by
  obtain ⟨added, effects, shows, _⟩ :=
    compile_shows_what_render_runs "clip.json" clipChoices clipWorld
  have rendered : (Job.leaves (render "clip.json" clipChoices) clipWorld).effects =
      [.directoryRequested "/out", .directoryMade "/out",
        .programRequested "ffmpeg" clipArguments, .started ["bin", "ffmpeg"] clipArguments,
        .printed "/out/clip.mp4\n"] := by decide +kernel
  have nothing : clipWorld.effects = [] := rfl
  rw [rendered, nothing, List.nil_append] at effects
  have requested : .programRequested "ffmpeg" clipArguments ∈ added := by
    rw [← effects]
    decide
  have list : (Value.list (clipArguments.map Value.text)).write =
      "[\"-y\",\"-i\",\"a.mp4\",\"-filter_complex\",\"[0]null[s0]\"," ++
        "\"-map\",\"[s0]\",\"out/clip.mp4\"]" := by decide +kernel
  have line : CommandLine.format "ffmpeg" clipArguments =
      "ffmpeg -y -i \"a.mp4\" -filter_complex \"[0]null[s0]\" -map \"[s0]\" " ++
        "\"out/clip.mp4\"" := by decide +kernel
  obtain ⟨asList, asLine⟩ := shows _ _ requested
  rw [nothing, List.nil_append, list] at asList
  rw [nothing, List.nil_append, line] at asLine
  refine ⟨?_, asList, asLine⟩
  rw [rendered]
  decide

end Montage.Program
