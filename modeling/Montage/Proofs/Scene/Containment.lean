import Montage.Proofs.Path.Route
import Montage.Proofs.Scene.Loading

/-!
# Where bundled scenes are looked up

A scene argument that is no path is looked up from the directory of the bundled
scenes on.  The file that is found there lies below that directory exactly if
the argument stays below wherever it starts; an argument that climbs can name
any file.
-/

namespace Montage.Scene

/-- The directory of the bundled scenes. -/
def scenesDirectory (world : World) : Location := world.installation ++ ["scenes"]

/-- How the file name of a scene leads away from the directory in which it is
looked up. -/
def route (scene : String) : Path.Route := .ofParts (Path.parts (fileName scene))

/-! ## The file name of a scene -/

theorem isName_lastName_fileName (scene : String) :
    Path.IsName (Path.lastName (fileName scene)) := by
  unfold fileName
  split
  · next ends =>
      apply Path.isName_lastName_of_extension_ne
      rw [ends]
      decide
  · obtain ⟨last, isLast⟩ : ∃ last, Path.lastName (scene ++ ".json") = last ++ ".json" :=
      Path.exists_lastName_append scene (by decide) (by decide)
    have unlike (other : String) (short : other.toList.length < 5) : last ++ ".json" ≠ other := by
      rintro rfl
      rw [String.toList_append, List.length_append] at short
      exact absurd short (by simp)
    have slashFree := Path.slashFree_lastName (scene ++ ".json")
    rw [isLast] at slashFree ⊢
    exact ⟨unlike "" (by decide), unlike "." (by decide), unlike ".." (by decide), slashFree⟩

theorem route_descends (scene : String) : (route scene).descent ≠ [] :=
  Path.Route.descent_ne_nil (isName_lastName_fileName scene)

theorem fileName_ne_empty (scene : String) : fileName scene ≠ "" := by
  intro empty
  have isName := isName_lastName_fileName scene
  rw [empty] at isName
  exact isName.notEmpty rfl

/-! ## The place of a bundled scene -/

theorem isName_of_mem_scenesDirectory {world : World}
    (areNames : ∀ name ∈ world.installation, Path.IsName name) :
    ∀ name ∈ scenesDirectory world, Path.IsName name := by
  intro name member
  rcases List.mem_append.mp member with inInstallation | isScenes
  · exact areNames name inInstallation
  · rw [List.mem_singleton.mp isScenes]
    decide

/-- The path of a bundled scene is the directory of the bundled scenes joined
with the file name. -/
theorem bundledPath_eq_below (world : World) (scene : String) :
    bundledPath world scene = Path.below (scenesDirectory world) [fileName scene] := by
  have present := fileName_ne_empty scene
  have isName : ∀ name ∈ ["scenes"], Path.IsName name := by decide
  have scenesParts : Path.follow world.installation (Path.parts "scenes") =
      scenesDirectory world := Path.follow_names isName _
  have both : ["scenes", fileName scene].filter (· ≠ "") = ["scenes", fileName scene] := by
    simp [present]
  have one : [fileName scene].filter (· ≠ "") = [fileName scene] := by simp [present]
  have alone : Path.join [fileName scene] = fileName scene := by simp [Path.join]
  rw [bundledPath, Path.below, Path.below, both, one, Path.join_cons_cons,
    Path.parts_append_slash, Path.follow_append, scenesParts, alone,
    Path.endsInSlash_append present]

theorem resolve_bundledPath {world : World}
    (areNames : ∀ name ∈ world.installation, Path.IsName name) (scene : String)
    (elsewhere : Location) :
    Path.resolve elsewhere (bundledPath world scene) =
      (route scene).goal (scenesDirectory world) := by
  rw [bundledPath_eq_below, Path.resolve_below (isName_of_mem_scenesDirectory areNames),
    List.flatMap_singleton, Path.Route.follow_eq_goal, route]

/-- A path that is there is taken as it is.  Otherwise the argument is joined to
the directory of the bundled scenes, and the file that it then names is taken if
it is there.  That file lies below the directory exactly if the argument stays
below wherever it starts, so always if it does not climb. -/
theorem locate_stays_below_scenes_iff (scene : String) (world : World)
    (areNames : ∀ name ∈ world.installation, Path.IsName name) :
    let joined := Path.below (scenesDirectory world)
      [if Path.extension scene = ".json" then scene else scene ++ ".json"]
    (Stands world (directPath world scene) →
      locate scene world = .ok (directPath world scene) world) ∧
    (¬ Stands world (directPath world scene) → Stands world joined →
      locate scene world = .ok joined world) ∧
    (¬ Stands world (directPath world scene) → ¬ Stands world joined →
      locate scene world = .error (.sceneNotFound scene) world ∧
      (Failure.sceneNotFound scene).message = "Scene not found: " ++ scene) ∧
    (∀ elsewhere, Path.Below (scenesDirectory world) (Path.resolve elsewhere joined) ↔
      (route scene).StaysBelow (scenesDirectory world)) ∧
    ((route scene).ascent = 0 → (route scene).StaysBelow (scenesDirectory world)) := by
  intro joined
  have isJoined : bundledPath world scene = joined := bundledPath_eq_below world scene
  have located := run_locate scene world
  rw [isJoined] at located
  refine ⟨?_, ?_, ?_, ?_, ?_⟩
  · intro stands
    rw [located, if_pos stands]
  · intro absent stands
    rw [located, if_neg absent, if_pos stands]
  · intro absent missing
    rw [located, if_neg absent, if_neg missing]
    exact ⟨rfl, rfl⟩
  · intro elsewhere
    rw [← isJoined, resolve_bundledPath areNames]
    exact Path.Route.below_goal_iff
  · intro level
    exact Path.Route.staysBelow_of_ascent_eq_zero level (route_descends scene) _

/-- A job in one directory, and an installation in another one with a manifest
and one scene. -/
def installedWorld : World :=
  { World.empty with
    files :=
      ([(["work"], .directory), (["app"], .directory), (["app", "package.json"], .file []),
        (["app", "scenes"], .directory), (["app", "scenes", "quad-grid.json"], .file [])] :
        List (Location × Entry)).foldl (fun files entry => files.add entry.1 entry.2) .empty
    directory := ["work"]
    installation := ["app"] }

theorem quadGrid_located_below_scenes :
    (∀ name ∈ installedWorld.installation, Path.IsName name) ∧
    locate "quad-grid" installedWorld = .ok "/app/scenes/quad-grid.json" installedWorld ∧
    Path.Below (scenesDirectory installedWorld)
      (Path.resolve [] "/app/scenes/quad-grid.json") := by
  have general := locate_stays_below_scenes_iff "quad-grid" installedWorld (by decide)
  exact ⟨by decide, general.2.1 (by decide) (by decide),
    (general.2.2.2.1 []).mpr (general.2.2.2.2 (by decide))⟩

/-- An argument that climbs out of the directory of the bundled scenes finds a
file that is no scene. -/
theorem climbing_argument_leaves_scenes :
    ¬ Stands installedWorld (directPath installedWorld "../package.json") ∧
    locate "../package.json" installedWorld = .ok "/app/package.json" installedWorld ∧
    ¬ Path.Below (scenesDirectory installedWorld) (Path.resolve [] "/app/package.json") := by
  refine ⟨by decide, ?_, ?_⟩
  · rw [run_locate, if_neg (by decide), if_pos (by decide)]
    rfl
  · have place : Path.resolve [] "/app/package.json" = ["app", "package.json"] := by decide
    rintro ⟨further, _, same⟩
    rw [place] at same
    simp [scenesDirectory, installedWorld] at same

end Montage.Scene
