import Montage.Program
import Montage.Proofs.FilterGraph.EmptyStack
import Montage.Proofs.Render.Running
import Montage.Proofs.Scene.Loading

/-!
# Commands about scenes

The command that shows a render and the one that carries it out begin alike:
they settle the settings, load the scene and plan the render.  If they come to
no plan they fail alike, and neither has then done anything but log.
-/

namespace Montage.Program

open CommandLine (Choices)

/-! ## Settings -/

/-- The settings of a command. -/
def settingsOf (choices : Choices) (world : World) : Settings :=
  Settings.make choices.given world.environment

/-- The world of a command once its settings have been settled. -/
def configured (choices : Choices) (world : World) : World :=
  { world with settings := some (settingsOf choices world) }

@[simp] theorem currentSettings_configured (choices : Choices) (world : World) :
    (configured choices world).currentSettings = settingsOf choices world := rfl

theorem sameHost_configured (choices : Choices) (world : World) :
    world.SameHost (configured choices world) :=
  ⟨rfl, rfl, rfl, rfl, rfl⟩

theorem run_configure (choices : Choices) (quiet : Bool) (world : World) :
    ∃ after, configure choices quiet world = .ok () after ∧
      (configured choices world).Leads [] after := by
  have same (threshold : Level) :
      (configured choices world).Leads [] { configured choices world with threshold } :=
    ⟨⟨rfl, rfl, rfl, rfl, rfl⟩, rfl, (List.append_nil _).symm⟩
  rw [configure, Job.run_bind_of_ok (Job.run_configure _ world)]
  cases choices.verbose with
  | true => exact ⟨_, rfl, same .debug⟩
  | false =>
      cases quiet with
      | true => exact ⟨_, rfl, same .warn⟩
      | false => exact ⟨_, rfl, same world.threshold⟩

/-! ## Scenes -/

/-- A command that does something with a scene. -/
def withScene {α : Type} (scene : String) (choices : Choices) (quiet : Bool)
    (rest : Node → Job α) : Job α := do
  configure choices quiet
  let root ← Scene.load scene
  rest root

theorem compile_eq (scene : String) (choices : Choices) :
    compile scene choices = withScene scene choices true (display · choices.json) := rfl

/-- Carries out the render of a composition and prints the path written. -/
def renderAndPrint (root : Node) : Job Unit := Render.run root Render.noOptions >>= Job.print

theorem render_eq (scene : String) (choices : Choices) :
    render scene choices = withScene scene choices false renderAndPrint := rfl

section

variable {α : Type} {scene : String} {world : World} (choices : Choices) (quiet : Bool)
  (rest : Node → Job α)

theorem run_withScene_of_describes {root : Node} (describes : Scene.Describes world scene root) :
    ∃ loaded, withScene scene choices quiet rest world = rest root loaded ∧
      (configured choices world).Leads [] loaded := by
  obtain ⟨between, configures, first⟩ := run_configure choices quiet world
  have found := (describes.sameHost (sameHost_configured choices world)).sameHost first.toSameHost
  obtain ⟨loaded, loads, second⟩ := Scene.run_load_of_describes found
  refine ⟨loaded, ?_, first.trans second⟩
  rw [withScene, Job.run_bind_of_ok configures, Job.run_bind_of_ok loads]

theorem run_withScene_of_unloadable {failure : Failure}
    (why : Scene.Unloadable world scene failure) :
    ∃ after, withScene scene choices quiet rest world = .error failure after ∧
      (configured choices world).Leads [] after := by
  obtain ⟨between, configures, first⟩ := run_configure choices quiet world
  have still := (why.sameHost (sameHost_configured choices world)).sameHost first.toSameHost
  obtain ⟨after, fails, second⟩ := Scene.run_load_of_unloadable still
  refine ⟨after, ?_, first.trans second⟩
  rw [withScene, Job.run_bind_of_ok configures, Job.run_bind_of_error fails]

end

/-! ## Plans -/

/-- An argument leads to a scene that has a graph. -/
def Ready (scene : String) (world : World) (root : Node) (graph : Graph) : Prop :=
  Scene.Describes world scene root ∧ root.compile = .ok graph

/-- Why an argument leads to no plan: to no scene, or to one with an empty
stack in it. -/
inductive Unready (scene : String) (world : World) : Failure → Prop where
  | unloadable {failure : Failure} : Scene.Unloadable world scene failure →
      Unready scene world failure
  | hollow {root : Node} {kind : StackKind} : Scene.Describes world scene root →
      root.FirstEmpty kind → Unready scene world (.composition (.emptyStack kind))

theorem ready_or_unready (scene : String) (world : World) :
    (∃ root graph, Ready scene world root graph) ∨ ∃ failure, Unready scene world failure := by
  rcases Scene.describes_or_unloadable world scene with
    ⟨root, describes⟩ | ⟨failure, unloadable⟩
  · cases compiled : root.compile with
    | ok graph => exact .inl ⟨root, graph, describes, compiled⟩
    | error error =>
        obtain ⟨kind, first, rfl⟩ := compile_eq_error_iff.mp compiled
        exact .inr ⟨_, .hollow describes (firstEmpty?_eq_some_iff.mp first)⟩
  · exact .inr ⟨failure, .unloadable unloadable⟩

/-- What plans a render first fails where planning fails. -/
theorem run_withScene_of_unready {α : Type} {scene : String} {world : World}
    {failure : Failure} (why : Unready scene world failure) (choices : Choices) (quiet : Bool)
    {rest : Node → Job α}
    (plans : ∀ root failure before after,
      Render.plan root Render.noOptions before = .error failure after →
        rest root before = .error failure after) :
    ∃ after, withScene scene choices quiet rest world = .error failure after ∧
      (configured choices world).Leads [] after := by
  cases why with
  | unloadable unloadable => exact run_withScene_of_unloadable choices quiet rest unloadable
  | @hollow root kind describes first =>
      obtain ⟨loaded, loads, leads⟩ := run_withScene_of_describes choices quiet rest describes
      have fault := compile_eq_error_iff.mpr ⟨kind, firstEmpty?_eq_some_iff.mpr first, rfl⟩
      have fails := plans _ _ _ _ (Render.run_plan_of_error fault Render.noOptions loaded)
      exact ⟨_, loads.trans fails, leads.trans loaded.leads_settled⟩

theorem run_compile_of_unready {scene : String} {world : World} {failure : Failure}
    (why : Unready scene world failure) (choices : Choices) :
    ∃ after, compile scene choices world = .error failure after ∧
      (configured choices world).Leads [] after := by
  rw [compile_eq]
  apply run_withScene_of_unready why
  intro root failure before after fails
  rw [display]
  cases choices.json with
  | true => exact Job.run_bind_of_error fails
  | false => exact Job.run_bind_of_error (Job.run_bind_of_error fails)

theorem run_render_of_unready {scene : String} {world : World} {failure : Failure}
    (why : Unready scene world failure) (choices : Choices) :
    ∃ after, render scene choices world = .error failure after ∧
      (configured choices world).Leads [] after := by
  rw [render_eq]
  apply run_withScene_of_unready why
  intro root failure before after fails
  exact Job.run_bind_of_error (Job.run_bind_of_error fails)

/-- The plan of a command that has come to a graph. -/
def planOf (choices : Choices) (world : World) (graph : Graph) : RenderPlan :=
  Render.planOf graph Render.noOptions (settingsOf choices world)

/-- A render is carried out from a world in which nothing but the settings has
been settled. -/
theorem run_render_of_ready {scene : String} {world : World} {root : Node} {graph : Graph}
    (ready : Ready scene world root graph) (choices : Choices) :
    ∃ planned,
      render scene choices world =
        (Render.carryOut (planOf choices world graph) >>= Job.print) planned ∧
      (configured choices world).Leads [] planned := by
  obtain ⟨describes, compiled⟩ := ready
  rw [render_eq]
  obtain ⟨loaded, loads, leads⟩ := run_withScene_of_describes choices false renderAndPrint describes
  have plans := Render.run_plan compiled Render.noOptions loaded
  rw [leads.settings] at plans
  refine ⟨Render.worldOf graph loaded, ?_, leads.trans (Render.leads_worldOf graph loaded)⟩
  rw [loads, renderAndPrint, Render.run_eq]
  exact Job.run_bind_of_eq (Job.run_bind_of_ok plans)

end Montage.Program
