import Montage.Host.Files
import Montage.Scene.Document
import Montage.Text.Escape

/-!
# Finding scenes

A scene is named by the path of its file, or by a name among the bundled
scenes if there is no such file.
-/

namespace Montage.Scene

/-- The file name that a bundled scene of a name has. -/
def fileName (scene : String) : String :=
  if Path.extension scene = ".json" then scene else scene ++ ".json"

/-- The path of the file of a scene. -/
def locate (scene : String) : Job String := do
  let direct := Path.ofLocation (← Job.resolve scene)
  if ← Job.pathExists direct then return direct
  let bundled ← Job.bundledPath [fileName scene]
  if ← Job.pathExists bundled then return bundled
  Job.fail (.sceneNotFound scene)

/-- The composition that a scene describes. -/
def load (scene : String) : Job Node := do
  let path ← locate scene
  Job.log .info ("[SceneLoader] Loading " ++ Text.oneLine path)
  let document ← Job.readValue path
  Job.ofExcept .scene (read document)

end Montage.Scene
