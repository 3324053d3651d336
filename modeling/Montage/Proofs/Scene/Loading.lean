import Montage.Proofs.Host.Effects
import Montage.Scene.Lookup

/-!
# Loading scenes

A scene argument names a file by its path, or else a bundled one.  Whether the
file holds a scene, and why not if it does not, depends only on the files and
on where the job runs.  Loading follows these rules and does no more than log.
-/

namespace Montage.Scene

/-! ## What an argument leads to -/

def directPath (world : World) (scene : String) : String :=
  Path.ofLocation (Path.resolve world.directory scene)

def bundledPath (world : World) (scene : String) : String :=
  Path.below world.installation ["scenes", fileName scene]

/-- Something stands at a path from where the job runs. -/
def Stands (world : World) (path : String) : Prop :=
  world.files.holds world.directory path = true

instance (world : World) (path : String) : Decidable (Stands world path) :=
  inferInstanceAs (Decidable (_ = true))

/-- The path of the file that a scene argument names. -/
inductive Names (world : World) (scene : String) : String → Prop where
  | direct : Stands world (directPath world scene) →
      Names world scene (directPath world scene)
  | bundled : ¬ Stands world (directPath world scene) →
      Stands world (bundledPath world scene) →
      Names world scene (bundledPath world scene)

/-- An argument names a file that holds the JSON text of a document. -/
inductive Holds (world : World) (scene : String) (document : Value) : Prop where
  | intro {path : String} {bytes : List UInt8} : Names world scene path →
      world.files.bytes world.directory path = .ok bytes →
      Value.read? (Text.Utf8.decode bytes) = some document →
      Holds world scene document

/-- The tree of the scene that an argument names. -/
def Describes (world : World) (scene : String) (root : Node) : Prop :=
  ∃ document, Holds world scene document ∧ read document = .ok root

/-- The failure to read a file. -/
def readFailure (path : String) : PathFault → Failure
  | .missing => .fileNotFound path
  | fault => .unreadable path fault

/-- Why an argument leads to no scene: there is no file, the file cannot be
read, it holds no JSON text, or its document is no scene. -/
inductive Unloadable (world : World) (scene : String) : Failure → Prop where
  | notFound : ¬ Stands world (directPath world scene) →
      ¬ Stands world (bundledPath world scene) →
      Unloadable world scene (.sceneNotFound scene)
  | unreadable {path : String} {fault : PathFault} : Names world scene path →
      world.files.bytes world.directory path = .error fault →
      Unloadable world scene (readFailure path fault)
  | notJson {path : String} {bytes : List UInt8} : Names world scene path →
      world.files.bytes world.directory path = .ok bytes →
      Value.read? (Text.Utf8.decode bytes) = none →
      Unloadable world scene (.notJson path (world.syntaxReason (Text.Utf8.decode bytes)))
  | notScene {document : Value} {error : Error} : Holds world scene document →
      read document = .error error →
      Unloadable world scene (.scene error)

/-- An argument leads to a scene, or there is a reason why it does not. -/
theorem describes_or_unloadable (world : World) (scene : String) :
    (∃ root, Describes world scene root) ∨ ∃ failure, Unloadable world scene failure := by
  by_cases named : ∃ path, Names world scene path
  · obtain ⟨path, names⟩ := named
    cases bytes : world.files.bytes world.directory path with
    | error fault => exact .inr ⟨_, .unreadable names bytes⟩
    | ok bytes' =>
        cases value : Value.read? (Text.Utf8.decode bytes') with
        | none => exact .inr ⟨_, .notJson names bytes value⟩
        | some document =>
            have holds : Holds world scene document := .intro names bytes value
            cases result : read document with
            | error error => exact .inr ⟨_, .notScene holds result⟩
            | ok root => exact .inl ⟨root, document, holds, result⟩
  · right
    refine ⟨_, .notFound ?_ ?_⟩
    · intro stands
      exact named ⟨_, .direct stands⟩
    · intro stands
      by_cases direct : Stands world (directPath world scene)
      · exact named ⟨_, .direct direct⟩
      · exact named ⟨_, .bundled direct stands⟩

section

variable {world other : World} {scene : String} (same : world.SameHost other)

include same

theorem directPath_eq : directPath other scene = directPath world scene := by
  rw [directPath, directPath, same.directory]

theorem bundledPath_eq : bundledPath other scene = bundledPath world scene := by
  rw [bundledPath, bundledPath, same.installation]

theorem stands_iff {path : String} : Stands other path ↔ Stands world path := by
  rw [Stands, Stands, same.files, same.directory]

theorem Names.sameHost {path : String} (names : Names world scene path) :
    Names other scene path := by
  cases names with
  | direct stands =>
      rw [← directPath_eq same, ← stands_iff same] at stands
      rw [← directPath_eq same]
      exact .direct stands
  | bundled absent stands =>
      rw [← directPath_eq same, ← stands_iff same] at absent
      rw [← bundledPath_eq same, ← stands_iff same] at stands
      rw [← bundledPath_eq same]
      exact .bundled absent stands

theorem bytes_eq (path : String) :
    other.files.bytes other.directory path = world.files.bytes world.directory path := by
  rw [same.files, same.directory]

theorem Holds.sameHost {document : Value} (holds : Holds world scene document) :
    Holds other scene document := by
  obtain ⟨names, bytes, value⟩ := holds
  rw [← bytes_eq same] at bytes
  exact .intro (names.sameHost same) bytes value

theorem Describes.sameHost {root : Node} (describes : Describes world scene root) :
    Describes other scene root := by
  obtain ⟨document, holds, result⟩ := describes
  exact ⟨document, holds.sameHost same, result⟩

theorem Unloadable.sameHost {failure : Failure} (why : Unloadable world scene failure) :
    Unloadable other scene failure := by
  cases why with
  | notFound absent notBundled =>
      rw [← directPath_eq same, ← stands_iff same] at absent
      rw [← bundledPath_eq same, ← stands_iff same] at notBundled
      exact .notFound absent notBundled
  | unreadable names bytes =>
      rw [← bytes_eq same] at bytes
      exact .unreadable (names.sameHost same) bytes
  | notJson names bytes value =>
      rw [← bytes_eq same] at bytes
      rw [← same.host]
      exact .notJson (names.sameHost same) bytes value
  | notScene holds result => exact .notScene (holds.sameHost same) result

end

/-! ## Loading -/

theorem Names.nullFree {world : World} {scene path : String}
    (names : Names world scene path) : NullFree path := by
  have stands : Stands world path := by
    cases names with
    | direct stands => exact stands
    | bundled _ stands => exact stands
  rw [Stands, FileSystem.holds, Bool.and_eq_true, Bool.not_eq_true'] at stands
  simpa [NullFree] using stands.1

theorem run_locate (scene : String) (world : World) :
    locate scene world =
      if Stands world (directPath world scene) then .ok (directPath world scene) world
      else if Stands world (bundledPath world scene) then .ok (bundledPath world scene) world
      else .error (.sceneNotFound scene) world := by
  rw [locate, Job.run_bind_of_ok (Job.run_resolve scene world),
    Job.run_bind_of_ok (Job.run_pathExists _ world)]
  change (if Stands world (directPath world scene) then pure (directPath world scene)
    else _ : Job String) world = _
  split
  · rfl
  · rw [Job.run_bind_of_ok (Job.run_bundledPath _ world),
      Job.run_bind_of_ok (Job.run_pathExists _ world)]
    change (if Stands world (bundledPath world scene) then pure (bundledPath world scene)
      else _ : Job String) world = _
    split <;> rfl

theorem run_locate_of_names {world : World} {scene path : String}
    (names : Names world scene path) : locate scene world = .ok path world := by
  rw [run_locate]
  cases names with
  | direct stands => rw [if_pos stands]
  | bundled absent stands => rw [if_neg absent, if_pos stands]

theorem run_readText {path : String} (nullFree : NullFree path) (world : World) :
    Job.readText path world =
      match world.files.bytes world.directory path with
      | .ok bytes => .ok (Text.Utf8.decode bytes) world
      | .error fault => .error (readFailure path fault) world := by
  rw [Job.readText, Job.run_bind_of_ok (Job.run_refuseNullPath nullFree world),
    Job.run_bind_of_ok (Job.run_get world)]
  rcases world.files.bytes world.directory path with fault | bytes
  · cases fault <;> rfl
  · rfl

theorem run_readValue {path : String} (nullFree : NullFree path) (world : World) :
    Job.readValue path world =
      match world.files.bytes world.directory path with
      | .error fault => .error (readFailure path fault) world
      | .ok bytes =>
          match Value.read? (Text.Utf8.decode bytes) with
          | none =>
              .error (.notJson path (world.syntaxReason (Text.Utf8.decode bytes))) world
          | some document => .ok document world := by
  have text := run_readText nullFree world
  rw [Job.readValue]
  rcases found : world.files.bytes world.directory path with fault | bytes
  · rw [found] at text
    exact Job.run_bind_of_error text
  · rw [found] at text
    rw [Job.run_bind_of_ok text]
    cases value : Value.read? (Text.Utf8.decode bytes) with
    | none => simp only [value]; rfl
    | some document => simp only [value]; rfl

/-- The world once a file has been found, which is all that loading logs. -/
def foundAt (path : String) (world : World) : World :=
  world.logged .info ("[SceneLoader] Loading " ++ Text.oneLine path)

theorem leads_foundAt (path : String) (world : World) : world.Leads [] (foundAt path world) :=
  World.leads_logged world _ _

theorem run_load_of_names {world : World} {scene path : String}
    (names : Names world scene path) :
    load scene world =
      (Job.readValue path >>= fun document => Job.ofExcept .scene (read document))
        (foundAt path world) := by
  rw [load, Job.run_bind_of_ok (run_locate_of_names names),
    Job.run_bind_of_ok (Job.run_log_eq_logged _ _ world)]
  rfl

theorem run_load_of_holds {world : World} {scene : String} {document : Value}
    (holds : Holds world scene document) :
    ∃ path, load scene world = Job.ofExcept .scene (read document) (foundAt path world) := by
  obtain @⟨path, bytes, names, found, value⟩ := holds
  have same := leads_foundAt path world
  have document := run_readValue names.nullFree (foundAt path world)
  rw [same.files, same.directory, found] at document
  simp only [value] at document
  exact ⟨path, by rw [run_load_of_names names, Job.run_bind_of_ok document]⟩

/-- A scene that an argument names is loaded, and nothing but the log shows
it. -/
theorem run_load_of_describes {world : World} {scene : String} {root : Node}
    (describes : Describes world scene root) :
    ∃ after, load scene world = .ok root after ∧ world.Leads [] after := by
  obtain ⟨document, holds, result⟩ := describes
  obtain ⟨path, loaded⟩ := run_load_of_holds holds
  rw [result, Job.run_ofExcept_ok] at loaded
  exact ⟨_, loaded, leads_foundAt path world⟩

theorem run_load_of_unloadable {world : World} {scene : String} {failure : Failure}
    (why : Unloadable world scene failure) :
    ∃ after, load scene world = .error failure after ∧ world.Leads [] after := by
  cases why with
  | notFound absent notBundled =>
      have missing := run_locate scene world
      rw [if_neg absent, if_neg notBundled] at missing
      exact ⟨world, Job.run_bind_of_error missing, World.Leads.refl world⟩
  | @unreadable path fault names found =>
      have same := leads_foundAt path world
      have unread := run_readValue names.nullFree (foundAt path world)
      rw [same.files, same.directory, found] at unread
      exact ⟨_, by rw [run_load_of_names names, Job.run_bind_of_error unread], same⟩
  | @notJson path bytes names found value =>
      have same := leads_foundAt path world
      have unread := run_readValue names.nullFree (foundAt path world)
      rw [same.files, same.directory, found] at unread
      simp only [value, same.host] at unread
      exact ⟨_, by rw [run_load_of_names names, Job.run_bind_of_error unread], same⟩
  | notScene holds result =>
      obtain ⟨path, loaded⟩ := run_load_of_holds holds
      rw [result, Job.run_ofExcept_error] at loaded
      exact ⟨_, loaded, leads_foundAt path world⟩

end Montage.Scene
