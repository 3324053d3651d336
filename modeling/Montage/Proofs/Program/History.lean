import Mathlib.Data.List.Induction
import Montage.Proofs.Program.Conduct
import Montage.Proofs.Settings.Precedence

/-!
# Settings along a history

A program sets variables, settles settings, and does things that look at the
settings, in any order.  What is looked at are the settings that were settled
last, or else those that were made at the first look.  They show the environment
of that moment, whatever has become of it since.
-/

namespace Montage

open Job (ActsOnSettings Conducted leaves leaves_of_ok)

/-! ## Requests -/

/-- Something that a program can do, and what it yields. -/
inductive Request : Type → Type where
  | setVariable (name : String) (value : Option String) : Request Unit
  | variableValue (name : String) : Request (Option String)
  | loadEnvFile (path : String) : Request Unit
  | configure (given : GivenSettings) : Request Settings
  | settings : Request Settings
  | setThreshold (threshold : Level) : Request Unit
  | readText (path : String) : Request String
  | readValue (path : String) : Request Value
  | makeDirectories (path : String) : Request Unit
  | findRoot (start : String) : Request String
  | locate (scene : String) : Request String
  | load (scene : String) : Request Node
  | plan (root : Node) (options : RenderOptions) : Request RenderPlan
  | describe (root : Node) (options : RenderOptions) : Request String
  | render (root : Node) (options : RenderOptions) : Request String
  | program : Request String
  | version (name : Option String) : Request (Option String)
  | runFfmpeg (arguments : List String) : Request Unit
  | checkFfmpeg : Request Doctor.Check
  | checkAll : Request Bool
  | command (words : List String) : Request Unit

namespace Request

def job {α : Type} : Request α → Job α
  | .setVariable name value => Job.setVariable name value
  | .variableValue name => Job.variableValue name
  | .loadEnvFile path => Program.loadEnvFile path
  | .configure given => Job.configure given
  | .settings => Job.settings
  | .setThreshold threshold => Job.setThreshold threshold
  | .readText path => Job.readText path
  | .readValue path => Job.readValue path
  | .makeDirectories path => Job.makeDirectories path
  | .findRoot start => Job.findRoot start
  | .locate scene => Scene.locate scene
  | .load scene => Scene.load scene
  | .plan root options => Render.plan root options
  | .describe root options => Render.describe root options
  | .render root options => Render.run root options
  | .program => Ffmpeg.program
  | .version (some name) => Ffmpeg.version? name
  | .version none => Ffmpeg.program >>= Ffmpeg.version?
  | .runFfmpeg arguments => Ffmpeg.run arguments
  | .checkFfmpeg => Doctor.checkFfmpeg
  | .checkAll => Doctor.run
  | .command words => Program.run words

/-- What a request that settles the settings is given for them. -/
def given? {α : Type} : Request α → Option GivenSettings
  | .configure given => some given
  | .command words =>
      match CommandLine.understand words with
      | .ok invocation => some invocation.choices.given
      | .error _ => none
  | _ => none

/-- A request that looks at the settings. -/
def reads {α : Type} : Request α → Bool
  | .settings | .plan _ _ | .describe _ _ | .render _ _ | .program | .version none
  | .runFfmpeg _ | .checkFfmpeg | .checkAll => true
  | _ => false

/-! ## What one request does to the settings -/

variable {α : Type}

/-- Settings are settled anew from what is given and the environment. -/
theorem settings_of_given {request : Request α} {given : GivenSettings}
    (settles : request.given? = some given) (world : World) :
    (leaves request.job world).settings = some (Settings.make given world.environment) := by
  cases request with
  | configure given =>
      cases settles
      rfl
  | command words =>
      simp only [given?] at settles
      split at settles
      · next invocation understood =>
          cases settles
          rw [job, Program.run_of_understood understood]
          exact Program.settings_perform invocation world
      · cases settles
  | _ => cases settles

/-- What becomes of the settings at a request that does not settle them: if it looks at
them it leaves those settled that it finds, and otherwise it leaves them alone. -/
theorem conducted_of_reads {request : Request α} (reads : request.reads = true) :
    Conducted .consulting request.job ∧ ActsOnSettings request.job := by
  cases request with
  | settings => exact ⟨Job.conducted_settings, Job.settings_actsOnSettings⟩
  | plan root options =>
      exact ⟨Render.conducted_plan root options, Render.plan_actsOnSettings root options⟩
  | describe root options =>
      exact ⟨Render.conducted_describe root options, Render.describe_actsOnSettings root options⟩
  | render root options =>
      exact ⟨Render.conducted_run root options, Render.run_actsOnSettings root options⟩
  | program => exact ⟨Ffmpeg.conducted_program, Ffmpeg.program_actsOnSettings⟩
  | version name =>
      cases name with
      | some name => cases reads
      | none =>
          refine ⟨Ffmpeg.conducted_program.bind fun name => ?_, Ffmpeg.program_actsOnSettings.bind _⟩
          exact (Ffmpeg.conducted_version? name).consulting
  | runFfmpeg arguments =>
      exact ⟨Ffmpeg.conducted_run arguments, Ffmpeg.run_actsOnSettings arguments⟩
  | checkFfmpeg => exact ⟨Doctor.conducted_checkFfmpeg, Doctor.checkFfmpeg_actsOnSettings⟩
  | checkAll => exact ⟨Doctor.conducted_run, Doctor.run_actsOnSettings⟩
  | _ => cases reads

/-- Whatever looks at the settings leaves those settled that it finds. -/
theorem settings_of_reads {request : Request α} (reads : request.reads = true)
    (world : World) :
    (leaves request.job world).settings = some world.currentSettings := by
  obtain ⟨conducted, acts⟩ := conducted_of_reads reads
  exact acts.settings_leaves conducted world

/-- Whatever neither settles nor looks at the settings leaves them as they are. -/
theorem settings_of_idle {request : Request α} (settles : request.given? = none)
    (reads : request.reads = false) (world : World) :
    (leaves request.job world).settings = world.settings := by
  cases request with
  | setVariable name value => rfl
  | variableValue name => rfl
  | loadEnvFile path =>
      obtain ⟨environment, loads⟩ := Program.run_loadEnvFile path world
      rw [job, leaves_of_ok loads]
  | setThreshold threshold => rfl
  | readText path => exact (Job.conducted_readText path).settings_leaves world
  | readValue path => exact (Job.conducted_readValue path).settings_leaves world
  | makeDirectories path => exact (Job.conducted_makeDirectories path).settings_leaves world
  | findRoot start => exact (Job.conducted_findRoot start).settings_leaves world
  | locate scene => exact (Scene.conducted_locate scene).settings_leaves world
  | load scene => exact (Scene.conducted_load scene).settings_leaves world
  | version name =>
      cases name with
      | some name => exact (Ffmpeg.conducted_version? name).settings_leaves world
      | none => cases reads
  | command words =>
      simp only [given?] at settles
      split at settles
      · cases settles
      · next reason stops =>
          rw [job, Program.run_of_stop stops]
          exact (Program.conducted_stop reason).settings_leaves world
  | configure given => cases settles
  | _ => cases reads

/-- A request that neither settles the settings nor looks at them. -/
def Idle (request : Request α) : Prop := request.given? = none ∧ request.reads = false

end Request

/-! ## Histories -/

/-- A request in a history. -/
abbrev Step := (α : Type) × Request α

/-- The world after a history of requests, some of which may have failed. -/
def after (history : List Step) (start : World) : World :=
  history.foldl (fun world step => leaves step.2.job world) start

@[simp] theorem after_nil (start : World) : after [] start = start := rfl

theorem after_cons (step : Step) (history : List Step) (start : World) :
    after (step :: history) start = after history (leaves step.2.job start) := rfl

theorem after_append (history more : List Step) (start : World) :
    after (history ++ more) start = after more (after history start) :=
  List.foldl_append

theorem after_concat (history : List Step) (step : Step) (start : World) :
    after (history ++ [step]) start = leaves step.2.job (after history start) :=
  after_append history [step] start

/-- Settings that a history has left: they follow from what was given when they
were last settled, or from nothing given when they were first looked at, and from
the environment of that moment. -/
inductive Snapshot (start : World) (history : List Step) : Settings → Prop where
  | settled {earlier later : List Step} {step : Step} {given : GivenSettings}
      {settings : Settings} :
      history = earlier ++ step :: later → step.2.given? = some given →
      (∀ other ∈ later, other.2.given? = none) →
      Settings.Precedence given (after earlier start).environment settings →
      Snapshot start history settings
  | lookedAt {earlier later : List Step} {step : Step} {settings : Settings} :
      history = earlier ++ step :: later → step.2.reads = true →
      (∀ other ∈ earlier, other.2.Idle) → (∀ other ∈ step :: later, other.2.given? = none) →
      Settings.Precedence Settings.noneGiven (after earlier start).environment settings →
      Snapshot start history settings

theorem Snapshot.precedence {start : World} {history : List Step} {settings : Settings}
    (snapshot : Snapshot start history settings) :
    ∃ given environment, Settings.Precedence given environment settings := by
  cases snapshot with
  | settled _ _ _ follows => exact ⟨_, _, follows⟩
  | lookedAt _ _ _ _ follows => exact ⟨_, _, follows⟩

/-- Settings stay until they are settled anew. -/
theorem settings_stay {later : List Step} (settles : ∀ step ∈ later, step.2.given? = none)
    {world : World} {settings : Settings} (settled : world.settings = some settings) :
    (after later world).settings = some settings := by
  induction later generalizing world with
  | nil => exact settled
  | cons step later induction =>
      obtain ⟨first, others⟩ := List.forall_mem_cons.mp settles
      rw [after_cons]
      apply induction others
      cases reads : step.2.reads with
      | true =>
          rw [Request.settings_of_reads reads, World.currentSettings, settled, Option.getD_some]
      | false => rw [Request.settings_of_idle first reads, settled]

/-- Nothing is settled before the settings are settled or looked at. -/
theorem settings_of_idle_history {history : List Step} (idle : ∀ step ∈ history, step.2.Idle)
    (start : World) : (after history start).settings = start.settings := by
  induction history generalizing start with
  | nil => rfl
  | cons step later induction =>
      obtain ⟨⟨settles, reads⟩, others⟩ := List.forall_mem_cons.mp idle
      rw [after_cons, induction others, Request.settings_of_idle settles reads]

variable {start : World} {history : List Step} {settings : Settings}

theorem Snapshot.settings_after (unsettled : start.settings = none)
    (snapshot : Snapshot start history settings) :
    (after history start).settings = some settings := by
  cases snapshot with
  | @settled earlier later step given _ split settles others follows =>
      rw [split, after_append, after_cons]
      apply settings_stay others
      rw [Request.settings_of_given settles, ← Settings.precedence_iff.mp follows]
  | @lookedAt earlier later step _ split reads idle others follows =>
      have first : (after earlier start).settings = none :=
        (settings_of_idle_history idle start).trans unsettled
      rw [split, after_append, after_cons]
      apply settings_stay (List.forall_mem_cons.mp others).2
      rw [Request.settings_of_reads reads, World.currentSettings, first, Option.getD_none,
        ← Settings.precedence_iff.mp follows]

/-- What has not been settled anew is still what it was. -/
theorem Snapshot.concat (snapshot : Snapshot start history settings) {step : Step}
    (settles : step.2.given? = none) : Snapshot start (history ++ [step]) settings := by
  have joined {earlier later : List Step} {middle : Step}
      (split : history = earlier ++ middle :: later) :
      history ++ [step] = earlier ++ middle :: (later ++ [step]) := by
    rw [split, List.append_assoc, List.cons_append]
  have still {later : List Step} (others : ∀ other ∈ later, other.2.given? = none) :
      ∀ other ∈ later ++ [step], other.2.given? = none := by
    intro other member
    rcases List.mem_append.mp member with earlier | last
    · exact others other earlier
    · rw [List.mem_singleton.mp last]
      exact settles
  cases snapshot with
  | settled split settled others follows =>
      exact .settled (joined split) settled (still others) follows
  | lookedAt split reads idle others follows =>
      exact .lookedAt (joined split) reads idle (still others) follows

/-- If nothing has been settled, nothing has asked for it. -/
theorem idle_of_unsettled (unsettled : (after history start).settings = none) :
    ∀ step ∈ history, step.2.Idle := by
  induction history using List.reverseRecOn with
  | nil => exact fun _ member => absurd member List.not_mem_nil
  | append_singleton earlier step induction =>
      rw [after_concat] at unsettled
      cases settles : step.2.given? with
      | some given =>
          rw [Request.settings_of_given settles] at unsettled
          cases unsettled
      | none =>
          cases reads : step.2.reads with
          | true =>
              rw [Request.settings_of_reads reads] at unsettled
              cases unsettled
          | false =>
              rw [Request.settings_of_idle settles reads] at unsettled
              intro other member
              rcases List.mem_append.mp member with before | last
              · exact induction unsettled other before
              · rw [List.mem_singleton.mp last]
                exact ⟨settles, reads⟩

theorem snapshot_of_settings (unsettled : start.settings = none)
    (found : (after history start).settings = some settings) :
    Snapshot start history settings := by
  induction history using List.reverseRecOn generalizing settings with
  | nil =>
      rw [after_nil, unsettled] at found
      cases found
  | append_singleton earlier step induction =>
      rw [after_concat] at found
      cases settles : step.2.given? with
      | some given =>
          rw [Request.settings_of_given settles] at found
          exact .settled rfl settles (fun _ none => absurd none List.not_mem_nil)
            (Settings.precedence_iff.mpr (Option.some.inj found).symm)
      | none =>
          cases before : (after earlier start).settings with
          | some current =>
              have still : ∀ other ∈ [step], other.2.given? = none := by simpa using settles
              have same : current = settings :=
                Option.some.inj ((settings_stay still before).symm.trans found)
              rw [← same]
              exact (induction before).concat settles
          | none =>
              cases reads : step.2.reads with
              | false =>
                  rw [Request.settings_of_idle settles reads, before] at found
                  cases found
              | true =>
                  rw [Request.settings_of_reads reads, World.currentSettings, before,
                    Option.getD_none] at found
                  exact .lookedAt rfl reads (idle_of_unsettled before) (by simpa using settles)
                    (Settings.precedence_iff.mpr (Option.some.inj found).symm)

/-! ## What is seen of the settings -/

/-- Whatever looks at the settings of a world sees these: it does what it would do
if they had just been settled, and it is told of them, of the program that they name
and of plans that follow them. -/
structure World.Presents (world : World) (settings : Settings) : Prop where
  reader {α : Type} (request : Request α) : request.reads = true →
    request.job world = request.job { world with settings := some settings }
  asked : ∃ next, Job.settings world = .ok settings next
  program : ∃ next, Ffmpeg.program world = .ok settings.program next
  planned (root : Node) (options : RenderOptions) (graph : Graph) : root.compile = .ok graph →
    ∃ next, Render.plan root options world = .ok (Render.planOf graph options settings) next

theorem World.presents_currentSettings {world : World} (named : world.currentSettings.program ≠ "") :
    world.Presents world.currentSettings where
  reader _ reads := (Request.conducted_of_reads reads).2 world
  asked := ⟨_, Job.run_settings world⟩
  program := by
    have same : world.currentSettings.programName = world.currentSettings.program :=
      if_neg named
    rw [← same]
    exact ⟨_, Ffmpeg.run_program world⟩
  planned _ options _ compiled := ⟨_, Render.run_plan compiled options world⟩

/-- After any history the settings are the snapshot that the history has left.
Nothing replaces it but a request that settles them, and whoever looks at the settings
sees the snapshot, which never names an empty program or output path. -/
theorem readers_see_snapshots {start : World} (unsettled : start.settings = none)
    (history : List Step) :
    (∀ settings,
      (after history start).settings = some settings ↔ Snapshot start history settings) ∧
    (∀ step : Step, step.2.given? = none →
      step.2.reads = false ∨ (after history start).settings ≠ none →
        (after (history ++ [step]) start).settings = (after history start).settings) ∧
    (∀ reader : Step, reader.2.reads = true → ∃ settings,
      Snapshot start (history ++ [reader]) settings ∧ (after history start).Presents settings) ∧
    ∀ settings, Snapshot start history settings →
      settings.program ≠ "" ∧ settings.outputPath ≠ "" := by
  have present {history : List Step} {settings : Settings}
      (snapshot : Snapshot start history settings) :
      settings.program ≠ "" ∧ settings.outputPath ≠ "" := by
    obtain ⟨_, _, follows⟩ := snapshot.precedence
    exact ⟨follows.program.ne_empty, follows.outputPath.ne_empty⟩
  refine ⟨fun settings => ⟨snapshot_of_settings unsettled, Snapshot.settings_after unsettled⟩,
    ?_, ?_, fun _ => present⟩
  · intro step settles quiet
    rw [after_concat]
    cases found : (after history start).settings with
    | some settings =>
        have still : ∀ other ∈ [step], other.2.given? = none := by simpa using settles
        exact settings_stay still found
    | none =>
        rcases quiet with reads | settled
        · rw [Request.settings_of_idle settles reads, found]
        · exact absurd found settled
  · intro reader reads
    have found : (after (history ++ [reader]) start).settings =
        some (after history start).currentSettings := by
      rw [after_concat, Request.settings_of_reads reads]
    have snapshot := snapshot_of_settings unsettled found
    exact ⟨_, snapshot, World.presents_currentSettings (present snapshot).1⟩

/-- A variable that changes after the first look is not seen any more. -/
theorem readers_see_snapshots_of_first_look :
    World.empty.settings = none ∧
      Snapshot World.empty
        [⟨_, .setVariable "FFMPEG_PATH" (some "/opt/ffmpeg")⟩, ⟨_, .settings⟩,
          ⟨_, .setVariable "FFMPEG_PATH" (some "ffmpeg")⟩]
        ⟨"/opt/ffmpeg", "output.mp4", true, false⟩ :=
  ⟨rfl, ((readers_see_snapshots rfl _).1 _).mp (by decide)⟩

end Montage
