import Mathlib.Logic.Basic
import Montage.Proofs.Program.Rendering
import Montage.Proofs.Program.Reports
import Montage.Proofs.Text.Escape

/-!
# Paths in the log

A user may put any character into the paths of scenes, media and outputs.  The paths of
scenes and outputs are written on one line in the log, so no line end or tab of theirs gets
there, though other control characters do.  Media paths are not written at all, save in the
record of a program that is started, which has all its arguments as they are.
-/

namespace Montage

open Job (leaves)
open Text (Printable breaks isControl marked)

/-! ## Records on lines -/

/-- The record that shows a graph goes over several lines of its own. -/
def Record.IsListing (record : Record) : Prop :=
  ∃ graph, record = ⟨.debug, Render.listing graph⟩

/-- How many lines a record takes in the log. -/
def Record.lines (record : Record) : Nat :=
  breaks (Event.logged record.level record.message).complaint

theorem Record.lines_eq (record : Record) : record.lines = breaks record.message + 1 := by
  obtain ⟨level, message⟩ := record
  have named : breaks level.name = 0 := by cases level <;> rfl
  have opening : breaks "[" = 0 := rfl
  have closing : breaks "]: " = 0 := rfl
  have ending : breaks "\n" = 1 := rfl
  simp only [lines, Event.complaint, Text.breaks_append, named, opening, closing, ending]
  omega

/-- A character stands in some record, other than one that shows a graph. -/
def Exposes (records : List Record) (character : Char) : Prop :=
  ∃ record ∈ records, ¬ record.IsListing ∧ character ∈ record.message.toList

def linesOf (records : List Record) : Nat := (records.map Record.lines).sum

section

variable (threshold : Level) (record : Record) (told more : List Record) (character : Char)

theorem not_exposes_nil : ¬ Exposes (threshold.kept []) character := by
  rintro ⟨record, member, _⟩
  cases member

theorem exposes_cons_iff :
    Exposes (threshold.kept (record :: told)) character ↔
      (threshold.shows record.level = true ∧ ¬ record.IsListing ∧
        character ∈ record.message.toList) ∨ Exposes (threshold.kept told) character := by
  by_cases shown : threshold.shows record.level = true
  · simp only [Exposes, Level.kept_cons_of_shown shown, List.mem_cons, exists_eq_or_imp, shown,
      true_and]
  · rw [Level.kept_cons_of_hidden shown]
    simp only [shown, Bool.false_eq_true, false_and, false_or]

theorem exposes_singleton_iff :
    Exposes (threshold.kept [record]) character ↔
      threshold.shows record.level = true ∧ ¬ record.IsListing ∧
        character ∈ record.message.toList := by
  rw [exposes_cons_iff]
  exact or_iff_left (not_exposes_nil threshold character)

theorem exposes_append_iff :
    Exposes (threshold.kept (told ++ more)) character ↔
      Exposes (threshold.kept told) character ∨ Exposes (threshold.kept more) character := by
  simp only [Exposes, Level.kept_append, List.mem_append, or_and_right, exists_or]

theorem linesOf_cons :
    linesOf (threshold.kept (record :: told)) =
      (if threshold.shows record.level then record.lines else 0) +
        linesOf (threshold.kept told) := by
  by_cases shown : threshold.shows record.level = true
  · rw [Level.kept_cons_of_shown shown, if_pos shown, linesOf, List.map_cons, List.sum_cons]
    rfl
  · rw [Level.kept_cons_of_hidden shown, if_neg shown, Nat.zero_add]

theorem linesOf_singleton :
    linesOf (threshold.kept [record]) = if threshold.shows record.level then record.lines else 0 :=
  linesOf_cons threshold record []

theorem linesOf_append :
    linesOf (threshold.kept (told ++ more)) =
      linesOf (threshold.kept told) + linesOf (threshold.kept more) := by
  rw [Level.kept_append, linesOf, List.map_append, List.sum_append]
  rfl

end

/-- What a job tells the log that the log keeps. -/
def Job.told {α : Type} (job : Job α) (before : World) : List Record :=
  (leaves job before).records.drop before.records.length

theorem Job.told_eq {α : Type} {job : Job α} {before : World} {told : List Record}
    (reports : before.Reports told (leaves job before)) :
    Job.told job before = before.threshold.kept told := by
  rw [Job.told, reports.records, List.drop_left]

/-! ## Texts of records -/

section

variable {character : Char} (control : isControl character = true)

include control

theorem isOperational_of_isControl : isOperational character = false := by
  have apart (letter : Char) (printed : isControl letter = false) : character ≠ letter := by
    rintro rfl
    rw [printed] at control
    cases control
  have other : isNumeric character = false := by
    cases numeric : isNumeric character with
    | false => rfl
    | true =>
        rw [Text.isControl_of_isNumeric numeric] at control
        cases control
  simp [isOperational, other, apart '=' rfl, apart ':' rfl]

theorem not_bracket_of_isControl : character ≠ '[' ∧ character ≠ ']' := by
  constructor
  · rintro rfl
    cases control
  · rintro rfl
    cases control

end

theorem Stream.printable_label (stream : Stream) : Printable stream.label :=
  Text.printable_of_not_mem fun _ control =>
    stream.not_mem_label (isOperational_of_isControl control)
      (not_bracket_of_isControl control).1 (not_bracket_of_isControl control).2

theorem Filter.printable_text (filter : Filter) : Printable filter.text :=
  Text.printable_of_not_mem fun _ control =>
    filter.not_mem_text (isOperational_of_isControl control)
      (not_bracket_of_isControl control).1 (not_bracket_of_isControl control).2

namespace Render

theorem printable_summary (graph : Graph) : Printable (summary graph) := by
  have natural (number : Nat) : Printable (toString number) := by
    apply Text.printable_of_numeric
    rw [Nat.toString_eq_repr, Nat.toList_repr]
    exact Numeric.toDigits number
  have compiled : Printable "[Composition] Compiled " := by decide
  have inputs : Printable " inputs, " := by decide
  have filters : Printable " filters → " := by decide +kernel
  have counted := ((compiled.append (natural graph.inputs.length)).append inputs).append
    (natural graph.filters.length)
  unfold summary
  exact (counted.append filters).append graph.output.printable_label

theorem printable_warning (warning : Warning) :
    Printable ("[Composition] " ++ warning.message) := by
  cases warning with
  | singleChild axis =>
      cases axis with
      | horizontal => decide
      | vertical => decide

/-- A listing has one line for each filter, or an empty one if there is none, and two
lines around these. -/
theorem lines_listing (graph : Graph) :
    Record.lines ⟨.debug, listing graph⟩ = max 1 graph.filters.length + 2 := by
  have opening : breaks "[Composition] ── filter_complex ──\n" = 1 := by decide +kernel
  have closing : breaks "\n── END filter_complex ──" = 1 := by decide +kernel
  have separator : breaks (filterSeparator ++ "\n") = 1 := by decide
  have unbroken (filter : Filter) : breaks filter.text = 0 := filter.printable_text.breaks
  rw [Record.lines_eq]
  unfold listing
  rw [Text.breaks_append, Text.breaks_append, opening, closing]
  cases graph.filters with
  | nil => rfl
  | cons first rest =>
      simp only [List.map_cons, Text.breaks_intercalate, unbroken, separator, List.map_map,
        Function.comp_def, List.map_const', List.sum_replicate_nat, List.length_cons]
      omega

end Render

/-! ## Paths in records -/

theorem Ffmpeg.announcement_cases (settings : Settings) :
    announcement settings = "FFmpeg: using FFMPEG_PATH config: " ++ settings.program ∨
      (Printable (announcement settings) ∧ Printable settings.program) := by
  have unnamed : Printable "FFmpeg: using system PATH" := by decide
  have empty : Printable "" := by decide
  have standard : Printable Settings.defaultProgram := by decide
  rw [announcement]
  split
  · exact .inl rfl
  · next same =>
      refine .inr ⟨unnamed, ?_⟩
      by_cases nothing : settings.program = ""
      · rw [nothing]
        exact empty
      · have default : settings.program = Settings.defaultProgram :=
          Decidable.byContradiction fun other => same ⟨nothing, other⟩
        rw [default]
        exact standard

theorem Settings.programName_cases (settings : Settings) :
    settings.programName = settings.program ∨
      (Printable settings.programName ∧ Printable settings.program) := by
  have empty : Printable "" := by decide
  have standard : Printable defaultProgram := by decide
  rw [programName]
  split
  · next nothing =>
      rw [nothing]
      exact .inr ⟨standard, empty⟩
  · exact .inl rfl

section

variable {character : Char} (control : isControl character = true) {settings : Settings}

include control

theorem Ffmpeg.mem_announcement_iff :
    character ∈ (announcement settings).toList ↔ character ∈ settings.program.toList := by
  have named : Printable "FFmpeg: using FFMPEG_PATH config: " := by decide
  rcases announcement_cases settings with given | ⟨announced, program⟩
  · rw [given]
    exact Text.mem_append_iff named control _
  · exact iff_of_false (announced.not_mem control) (program.not_mem control)

theorem Settings.mem_programName_iff :
    character ∈ settings.programName.toList ↔ character ∈ settings.program.toList := by
  rcases programName_cases settings with same | ⟨named, program⟩
  · rw [same]
  · exact iff_of_false (named.not_mem control) (program.not_mem control)

theorem Render.mem_arguments_iff (graph : Graph) (overwrite : Bool) (outputPath : String) :
    (∃ argument ∈ arguments graph overwrite outputPath, character ∈ argument.toList) ↔
      (∃ path ∈ graph.inputs, character ∈ path.toList) ∨ character ∈ outputPath.toList := by
  have options : ∀ option ∈ ["-y", "-i", "-filter_complex", "-map"],
      character ∉ option.toList := by
    have printable : ∀ option ∈ ["-y", "-i", "-filter_complex", "-map"], Printable option := by
      decide
    exact fun option listed => (printable option listed).not_mem control
  have separator : character ∉ ";".toList := by
    have printable : Printable ";" := by decide
    exact printable.not_mem control
  have expressions :
      character ∉ (String.intercalate ";" (graph.completed.filters.map Filter.text)).toList := by
    rw [Text.mem_intercalate_iff separator]
    rintro ⟨text, listed, member⟩
    obtain ⟨filter, _, rfl⟩ := List.mem_map.mp listed
    exact filter.printable_text.not_mem control member
  have label := graph.completed.output.printable_label.not_mem control
  have without := Render.forall_mem_arguments_iff options expressions label overwrite outputPath
  rw [← not_iff_not]
  simpa only [not_exists, not_and, not_or] using without

end

theorem Ffmpeg.breaks_announcement (settings : Settings) :
    breaks (announcement settings) = breaks settings.program := by
  have named : breaks "FFmpeg: using FFMPEG_PATH config: " = 0 := by decide
  rcases announcement_cases settings with given | ⟨announced, program⟩
  · rw [given, Text.breaks_append, named, Nat.zero_add]
  · rw [announced.breaks, program.breaks]

theorem Settings.breaks_programName (settings : Settings) :
    breaks settings.programName = breaks settings.program := by
  rcases programName_cases settings with same | ⟨named, program⟩
  · rw [same]
  · rw [named.breaks, program.breaks]

theorem Render.sum_breaks_arguments (graph : Graph) (overwrite : Bool) (outputPath : String) :
    ((arguments graph overwrite outputPath).map breaks).sum =
      (graph.inputs.map breaks).sum + breaks outputPath := by
  have leave : ((if overwrite then ["-y"] else []).map breaks).sum = 0 := by
    cases overwrite with
    | true => decide
    | false => rfl
  have inputs (paths : List String) :
      ((paths.flatMap fun path => ["-i", path]).map breaks).sum = (paths.map breaks).sum := by
    have option : breaks "-i" = 0 := by decide
    induction paths with
    | nil => rfl
    | cons path rest induction =>
        rw [List.flatMap_cons, List.map_append, List.sum_append, induction]
        simp [option]
  have separator : breaks ";" = 0 := by decide
  have expressions :
      breaks (String.intercalate ";" (graph.completed.filters.map Filter.text)) = 0 := by
    have unbroken (filter : Filter) : breaks filter.text = 0 := filter.printable_text.breaks
    rw [Text.breaks_intercalate_of_unbroken separator, List.map_map]
    simp only [Function.comp_def, unbroken, List.map_const', List.sum_replicate_nat, Nat.mul_zero]
  have label : breaks graph.completed.output.label = 0 :=
    graph.completed.output.printable_label.breaks
  have filterOption : breaks "-filter_complex" = 0 := by decide
  have mapOption : breaks "-map" = 0 := by decide
  rw [arguments, Graph.arguments_eq]
  simp only [List.map_append, List.sum_append, leave, inputs, List.map_cons, List.map_nil,
    List.sum_cons, List.sum_nil, expressions, label, filterOption, mapOption]
  omega

/-! ## What single records expose -/

theorem Render.take_listing (graph : Graph) : (listing graph).toList.take 2 = ['[', 'C'] := by
  unfold listing
  rw [String.toList_append, String.toList_append]
  rfl

theorem Ffmpeg.not_isListing_announcing (settings : Settings) :
    ¬ (announcing settings).IsListing := by
  rintro ⟨graph, same⟩
  have message : announcement settings = Render.listing graph := congrArg Record.message same
  have begins := Render.take_listing graph
  rw [← message, announcement] at begins
  split at begins
  · rw [String.toList_append] at begins
    cases begins
  · cases begins

theorem Ffmpeg.not_isListing_running (settings : Settings) (arguments : List String) :
    ¬ (running settings arguments).IsListing := by
  rintro ⟨graph, same⟩
  have message : "[FFmpeg] " ++ settings.programName ++ " " ++ String.intercalate " " arguments =
      Render.listing graph := congrArg Record.message same
  have begins := Render.take_listing graph
  rw [← message, String.toList_append, String.toList_append, String.toList_append] at begins
  cases begins

section

variable {character : Char} (control : isControl character = true) (threshold : Level)

include control

/-- A path that is written on one line shows its unmarked control characters. -/
theorem exposes_path_iff {prelude : String} (printable : Printable prelude) (path : String) :
    Exposes (threshold.kept [⟨.info, prelude ++ Text.oneLine path⟩]) character ↔
      threshold.shows .info = true ∧ character ∈ path.toList ∧ character ∉ marked := by
  have apart : ¬ Record.IsListing ⟨.info, prelude ++ Text.oneLine path⟩ := by
    rintro ⟨graph, same⟩
    cases same
  rw [exposes_singleton_iff, Text.mem_append_iff printable control, Text.mem_oneLine_iff control]
  exact and_congr_right fun _ => and_iff_right apart

theorem not_exposes_planning (graph : Graph) :
    ¬ Exposes (threshold.kept (Render.planning graph)) character := by
  rintro ⟨record, member, apart, inMessage⟩
  have told := (List.mem_filter.mp member).1
  rcases List.mem_cons.mp told with rfl | told
  · exact (Render.printable_summary graph).not_mem control inMessage
  · rcases List.mem_cons.mp told with rfl | told
    · exact apart ⟨graph, rfl⟩
    · obtain ⟨warning, _, rfl⟩ := List.mem_map.mp told
      exact (Render.printable_warning warning).not_mem control inMessage

theorem Ffmpeg.exposes_announcing_iff (settings : Settings) :
    Exposes (threshold.kept [announcing settings]) character ↔
      threshold.shows .debug = true ∧ character ∈ settings.program.toList := by
  rw [exposes_singleton_iff, and_iff_right (not_isListing_announcing settings)]
  exact and_congr_right fun _ => mem_announcement_iff control

/-- The record of a program shows all control characters that its paths have. -/
theorem Ffmpeg.exposes_running_iff (settings : Settings) (graph : Graph) (overwrite : Bool)
    (outputPath : String) :
    Exposes (threshold.kept [running settings (Render.arguments graph overwrite outputPath)])
        character ↔
      threshold.shows .debug = true ∧
        (character ∈ settings.program.toList ∨ (∃ path ∈ graph.inputs, character ∈ path.toList) ∨
          character ∈ outputPath.toList) := by
  have prelude : Printable "[FFmpeg] " := by decide
  have blank : Printable " " := by decide
  rw [exposes_singleton_iff, and_iff_right (not_isListing_running settings _)]
  refine and_congr_right fun _ => ?_
  rw [running, String.append_assoc, String.append_assoc, Text.mem_append_iff prelude control,
    String.toList_append, List.mem_append, Text.mem_append_iff blank control,
    Text.mem_intercalate_iff (blank.not_mem control), Settings.mem_programName_iff control,
    Render.mem_arguments_iff control]

end

/-! ## Lines of single records -/

section

variable (threshold : Level)

theorem linesOf_path {prelude : String} (unbroken : breaks prelude = 0) (path : String) :
    linesOf (threshold.kept [⟨.info, prelude ++ Text.oneLine path⟩]) =
      if threshold.shows .info then 1 else 0 := by
  rw [linesOf_singleton, Record.lines_eq, Text.breaks_append, unbroken, Text.breaks_oneLine]

/-- The lines that are logged of a plan. -/
def Render.planLines (threshold : Level) (graph : Graph) : Nat :=
  (if threshold.shows .info then 1 else 0) +
    ((if threshold.shows .debug then max 1 graph.filters.length + 2 else 0) +
      if threshold.shows .warn then graph.warnings.length else 0)

theorem Render.linesOf_planning (graph : Graph) :
    linesOf (threshold.kept (planning graph)) = planLines threshold graph := by
  have warned (warnings : List Warning) :
      linesOf (threshold.kept
        (warnings.map fun warning => ⟨.warn, "[Composition] " ++ warning.message⟩)) =
          if threshold.shows .warn then warnings.length else 0 := by
    induction warnings with
    | nil => exact (ite_self 0).symm
    | cons warning rest induction =>
        rw [List.map_cons, linesOf_cons, induction, Record.lines_eq,
          (printable_warning warning).breaks, List.length_cons]
        split
        · omega
        · rfl
  rw [planning, linesOf_cons, linesOf_cons, warned, lines_listing, Record.lines_eq,
    (printable_summary graph).breaks]
  rfl

theorem Ffmpeg.linesOf_announcing (settings : Settings) :
    linesOf (threshold.kept [announcing settings]) =
      if threshold.shows .debug then breaks settings.program + 1 else 0 := by
  rw [linesOf_singleton, Record.lines_eq, announcing, breaks_announcement]

theorem Ffmpeg.linesOf_running (settings : Settings) (graph : Graph) (overwrite : Bool)
    (outputPath : String) :
    linesOf (threshold.kept [running settings (Render.arguments graph overwrite outputPath)]) =
      if threshold.shows .debug then
        breaks settings.program + (graph.inputs.map breaks).sum + breaks outputPath + 1
      else 0 := by
  have prelude : breaks "[FFmpeg] " = 0 := by decide
  have blank : breaks " " = 0 := by decide
  rw [linesOf_singleton, Record.lines_eq, running, Text.breaks_append, Text.breaks_append,
    Text.breaks_append, prelude, blank, Settings.breaks_programName,
    Text.breaks_intercalate_of_unbroken blank, Render.sum_breaks_arguments]
  split
  · omega
  · rfl

end

/-! ## Commands -/

namespace Program

open CommandLine (Choices)

theorem exposes_preview_iff {scene : String} {json : Bool} {world : World} {told : List Record}
    (preview : PreviewTold scene json world told) {character : Char}
    (control : isControl character = true) (threshold : Level) :
    Exposes (threshold.kept told) character ↔
      (threshold.shows .info = true ∧ character ∉ marked ∧
        ∃ path, Scene.Names world scene path ∧ character ∈ path.toList) ∨
      (threshold.shows .debug = true ∧ json = false ∧ (∃ root graph, Ready scene world root graph) ∧
        character ∈ world.currentSettings.program.toList) := by
  have prelude : Printable "[SceneLoader] Loading " := by decide
  have loading (path : String) (names : Scene.Names world scene path) :
      Exposes (threshold.kept [Scene.loading path]) character ↔
        threshold.shows .info = true ∧ character ∉ marked ∧
          ∃ path, Scene.Names world scene path ∧ character ∈ path.toList := by
    rw [Scene.loading, exposes_path_iff control threshold prelude]
    refine and_congr_right fun _ => ?_
    constructor
    · rintro ⟨member, unmarked⟩
      exact ⟨unmarked, path, names, member⟩
    · rintro ⟨unmarked, other, same, member⟩
      rw [← names.unique same] at member
      exact ⟨member, unmarked⟩
  cases preview with
  | lost absent =>
      refine iff_of_false (not_exposes_nil threshold character) ?_
      rintro (⟨_, _, path, names, _⟩ | ⟨_, _, ⟨root, graph, describes, _⟩, _⟩)
      · exact absent path names
      · obtain ⟨path, names, _⟩ := Scene.exists_load_of_describes describes
        exact absent path names
  | @unplanned path names unready =>
      rw [loading path names]
      refine (or_iff_left ?_).symm
      rintro ⟨_, _, ⟨root, graph, ready⟩, _⟩
      exact unready root graph ready
  | @planned path root graph names ready =>
      rw [← List.singleton_append, exposes_append_iff, exposes_append_iff, loading path names,
        or_iff_right (not_exposes_planning control threshold graph)]
      refine or_congr_right ?_
      cases json with
      | true =>
          refine iff_of_false (not_exposes_nil threshold character) ?_
          rintro ⟨_, impossible, _⟩
          cases impossible
      | false =>
          have announced := Ffmpeg.exposes_announcing_iff control threshold world.currentSettings
          constructor
          · intro exposed
            obtain ⟨shown, member⟩ := announced.mp exposed
            exact ⟨shown, rfl, ⟨root, graph, ready⟩, member⟩
          · rintro ⟨shown, _, _, member⟩
            exact announced.mpr ⟨shown, member⟩

/-- A render tells its records of paths, of its plan and of its program in turn. -/
theorem renderTold_eq_append (path : String) (graph : Graph) (world : World) :
    let settings := world.currentSettings
    let planned := Render.planOf graph Render.noOptions settings
    let written := Path.ofLocation (Path.resolve world.directory settings.outputPath)
    renderTold path graph world =
      [Scene.loading path] ++ (Render.planning graph ++
        ([Render.rendering written] ++ ([Ffmpeg.announcing settings] ++
          ([Ffmpeg.running settings planned.arguments] ++ [Render.completing written])))) :=
  rfl

theorem exposes_render_iff {character : Char} (control : isControl character = true)
    (threshold : Level) (path : String) (graph : Graph) (world : World) :
    Exposes (threshold.kept (renderTold path graph world)) character ↔
      (threshold.shows .info = true ∧ character ∉ marked ∧
        (character ∈ path.toList ∨
          character ∈ (Path.ofLocation
            (Path.resolve world.directory world.currentSettings.outputPath)).toList)) ∨
      (threshold.shows .debug = true ∧
        (character ∈ world.currentSettings.program.toList ∨
          (∃ media ∈ graph.inputs, character ∈ media.toList) ∨
          character ∈ world.currentSettings.outputPath.toList)) := by
  let settings := world.currentSettings
  let planned := Render.planOf graph Render.noOptions settings
  let written := Path.ofLocation (Path.resolve world.directory settings.outputPath)
  have loading : Exposes (threshold.kept [Scene.loading path]) character ↔ _ :=
    exposes_path_iff control threshold (by decide) path
  have rendering : Exposes (threshold.kept [Render.rendering written]) character ↔ _ :=
    exposes_path_iff control threshold (by decide +kernel) written
  have completing : Exposes (threshold.kept [Render.completing written]) character ↔ _ :=
    exposes_path_iff control threshold (by decide) written
  have announcing : Exposes (threshold.kept [Ffmpeg.announcing settings]) character ↔ _ :=
    Ffmpeg.exposes_announcing_iff control threshold settings
  have running :
      Exposes (threshold.kept [Ffmpeg.running settings planned.arguments]) character ↔ _ :=
    Ffmpeg.exposes_running_iff control threshold settings graph _ settings.outputPath
  rw [renderTold_eq_append, exposes_append_iff, exposes_append_iff, exposes_append_iff,
    exposes_append_iff, exposes_append_iff, or_iff_right (not_exposes_planning control _ graph),
    loading, rendering, announcing, running, completing]
  constructor
  · rintro (⟨shown, member, unmarked⟩ | ⟨shown, member, unmarked⟩ | ⟨shown, member⟩ | debug |
      ⟨shown, member, unmarked⟩)
    · exact .inl ⟨shown, unmarked, .inl member⟩
    · exact .inl ⟨shown, unmarked, .inr member⟩
    · exact .inr ⟨shown, .inl member⟩
    · exact .inr debug
    · exact .inl ⟨shown, unmarked, .inr member⟩
  · rintro (⟨shown, unmarked, member | member⟩ | debug)
    · exact .inl ⟨shown, member, unmarked⟩
    · exact .inr (.inl ⟨shown, member, unmarked⟩)
    · exact .inr (.inr (.inr (.inl debug)))

theorem linesOf_preview {scene : String} {json : Bool} {world : World} {told : List Record}
    (preview : PreviewTold scene json world told) {root : Node} {graph : Graph}
    (ready : Ready scene world root graph) (threshold : Level) :
    linesOf (threshold.kept told) =
      (if threshold.shows .info then 1 else 0) + Render.planLines threshold graph +
        if json then 0
        else if threshold.shows .debug then breaks world.currentSettings.program + 1 else 0 := by
  obtain ⟨describes, compiled⟩ := ready
  cases preview with
  | lost absent =>
      obtain ⟨path, named, _⟩ := Scene.exists_load_of_describes describes
      exact absurd named (absent path)
  | unplanned _ unready => exact absurd ⟨describes, compiled⟩ (unready root graph)
  | @planned path other found _ shown =>
      have sameRoot : other = root := shown.1.unique describes
      subst sameRoot
      have sameGraph : found = graph := Except.ok.inj (shown.2.symm.trans compiled)
      subst sameGraph
      have loading : linesOf (threshold.kept [Scene.loading path]) = _ :=
        linesOf_path threshold (by decide) path
      rw [← List.singleton_append, linesOf_append, linesOf_append, loading,
        Render.linesOf_planning, Nat.add_assoc]
      cases json with
      | true => rfl
      | false =>
          rw [if_neg Bool.false_ne_true, if_neg Bool.false_ne_true, Ffmpeg.linesOf_announcing]

theorem linesOf_render (threshold : Level) (path : String) (graph : Graph) (world : World) :
    linesOf (threshold.kept (renderTold path graph world)) =
      (if threshold.shows .info then 3 else 0) + Render.planLines threshold graph +
        if threshold.shows .debug then
          2 * breaks world.currentSettings.program + (graph.inputs.map breaks).sum +
            breaks world.currentSettings.outputPath + 2
        else 0 := by
  let settings := world.currentSettings
  let planned := Render.planOf graph Render.noOptions settings
  let written := Path.ofLocation (Path.resolve world.directory settings.outputPath)
  have loading : linesOf (threshold.kept [Scene.loading path]) = _ :=
    linesOf_path threshold (by decide) path
  have rendering : linesOf (threshold.kept [Render.rendering written]) = _ :=
    linesOf_path threshold (by decide +kernel) written
  have completing : linesOf (threshold.kept [Render.completing written]) = _ :=
    linesOf_path threshold (by decide) written
  have announcing : linesOf (threshold.kept [Ffmpeg.announcing settings]) = _ :=
    Ffmpeg.linesOf_announcing threshold settings
  have running :
      linesOf (threshold.kept [Ffmpeg.running settings planned.arguments]) = _ :=
    Ffmpeg.linesOf_running threshold settings graph _ settings.outputPath
  rw [renderTold_eq_append, linesOf_append, linesOf_append, linesOf_append, linesOf_append, linesOf_append,
    loading, Render.linesOf_planning, rendering, announcing, running, completing]
  change _ = _ + _ + if threshold.shows .debug then
    2 * breaks settings.program + (graph.inputs.map breaks).sum + breaks settings.outputPath + 2
    else 0
  cases threshold.shows .info with
  | true =>
      cases threshold.shows .debug with
      | true => simp only [if_true]; omega
      | false => simp only [if_true, Bool.false_eq_true, if_false]; omega
  | false =>
      cases threshold.shows .debug with
      | true => simp only [if_true, Bool.false_eq_true, if_false]; omega
      | false => simp only [Bool.false_eq_true, if_false]; omega

/-- What becomes of control characters in paths.  A preview logs the path of its scene on one
line, so none gets into the log but those without a mark of their own, and the number of lines
does not depend on any path but that of the program.  A render that ends well logs the path that
it writes in the same way.  But if it logs everything, it logs the arguments of its program as
they are, and so all that media paths and the output path contain. -/
theorem control_characters_in_log (scene : String) (choices : Choices) (before : World) :
    (∀ character, isControl character = true →
      (Exposes (Job.told (work ⟨.compile, scene, choices⟩) before) character ↔
        (before.threshold.shows .info = true ∧ character ∉ marked ∧
          ∃ path, Scene.Names before scene path ∧ character ∈ path.toList) ∨
        (before.threshold.shows .debug = true ∧ choices.json = false ∧
          (∃ root graph, Ready scene before root graph) ∧
          character ∈ before.currentSettings.program.toList))) ∧
    (∀ root graph, Ready scene before root graph →
      linesOf (Job.told (work ⟨.compile, scene, choices⟩) before) =
        (if before.threshold.shows .info then 1 else 0) +
          Render.planLines before.threshold graph +
          if choices.json then 0
          else if before.threshold.shows .debug then
            breaks before.currentSettings.program + 1
          else 0) ∧
    ∀ after, work ⟨.render, scene, choices⟩ before = .ok () after →
      ∃ path root graph, Scene.Names before scene path ∧ Ready scene before root graph ∧
        (∀ character, isControl character = true →
          (Exposes (Job.told (work ⟨.render, scene, choices⟩) before) character ↔
            (before.threshold.shows .info = true ∧ character ∉ marked ∧
              (character ∈ path.toList ∨
                character ∈ (Path.ofLocation (Path.resolve before.directory
                  before.currentSettings.outputPath)).toList)) ∨
            (before.threshold.shows .debug = true ∧
              (character ∈ before.currentSettings.program.toList ∨
                (∃ media ∈ root.paths, character ∈ media.toList) ∨
                character ∈ before.currentSettings.outputPath.toList)))) ∧
        linesOf (Job.told (work ⟨.render, scene, choices⟩) before) =
          (if before.threshold.shows .info then 3 else 0) +
            Render.planLines before.threshold graph +
            if before.threshold.shows .debug then
              2 * breaks before.currentSettings.program + (root.paths.map breaks).sum +
                breaks before.currentSettings.outputPath + 2
            else 0 := by
  obtain ⟨told, preview, reports⟩ := exists_previewTold scene choices before
  rw [Job.told_eq reports]
  refine ⟨fun character control => exposes_preview_iff preview control _,
    fun root graph ready => linesOf_preview preview ready _, ?_⟩
  intro after renders
  obtain ⟨path, root, graph, names, ready, reports⟩ := exists_renderTold renders
  rw [← Job.leaves_of_ok renders] at reports
  have inputs : graph.inputs = root.paths := (compile_eq_ok_iff.mp ready.2).inputs_eq
  refine ⟨path, root, graph, names, ready, fun character control => ?_, ?_⟩
  · rw [Job.told_eq reports, exposes_render_iff control, inputs]
  · rw [Job.told_eq reports, linesOf_render, inputs]

/-! A render of a path without control characters, and one of a path with a line end. -/

theorem clip_log_unbroken :
    ∃ after, work ⟨.render, "clip.json", clipChoices⟩ (clipWorld.atLevel .debug) = .ok () after ∧
      ¬ Exposes (Job.told (work ⟨.render, "clip.json", clipChoices⟩) (clipWorld.atLevel .debug))
        '\n' := by
  let world := clipWorld.atLevel .debug
  have rendered : Job.yields? (work ⟨.render, "clip.json", clipChoices⟩) world = some () := by
    decide +kernel
  obtain ⟨after, renders⟩ := Job.exists_of_yields? rendered
  obtain ⟨path, root, graph, names, ready, exposes, _⟩ :=
    (control_characters_in_log "clip.json" clipChoices world).2.2 after renders
  have loaded : (Job.yields? (Scene.load "clip.json") world).map Node.paths = some ["a.mp4"] := by
    decide +kernel
  obtain ⟨_, loads, _⟩ := Scene.run_load_of_describes ready.1
  rw [Job.yields?_of_ok loads] at loaded
  have paths : root.paths = ["a.mp4"] := Option.some.inj loaded
  have program : '\n' ∉ world.currentSettings.program.toList := by decide
  have output : '\n' ∉ world.currentSettings.outputPath.toList := by decide
  refine ⟨after, renders, fun exposed => ?_⟩
  rcases (exposes '\n' rfl).mp exposed with
    ⟨_, unmarked, _⟩ | ⟨_, inProgram | ⟨media, listed, inMedia⟩ | inOutput⟩
  · exact unmarked (by decide)
  · exact program inProgram
  · rw [paths, List.mem_singleton] at listed
    rw [listed] at inMedia
    exact absurd inMedia (by decide)
  · exact output inOutput

def brokenText : String := "\x7b\"type\":\"resource\",\"path\":\"a\\nb.mp4\"\x7d"

def brokenWorld : World :=
  { World.empty with
    files := clipFiles.add ["clip.json"]
      (.file (brokenText.toList.map fun character => character.toNat.toUInt8))
    threshold := .debug }

theorem media_path_breaks_line :
    ∃ after root, work ⟨.render, "clip.json", Choices.none⟩ brokenWorld = .ok () after ∧
      Scene.Describes brokenWorld "clip.json" root ∧ "a\nb.mp4" ∈ root.paths ∧
      Exposes (Job.told (work ⟨.render, "clip.json", Choices.none⟩) brokenWorld) '\n' := by
  have rendered : Job.yields? (work ⟨.render, "clip.json", Choices.none⟩) brokenWorld =
      some () := by decide +kernel
  obtain ⟨after, renders⟩ := Job.exists_of_yields? rendered
  obtain ⟨path, root, graph, names, ready, reports⟩ := exists_renderTold renders
  have loaded : (Job.yields? (Scene.load "clip.json") brokenWorld).map Node.paths =
      some ["a\nb.mp4"] := by decide +kernel
  obtain ⟨_, loads, _⟩ := Scene.run_load_of_describes ready.1
  rw [Job.yields?_of_ok loads] at loaded
  have paths : root.paths = ["a\nb.mp4"] := Option.some.inj loaded
  have member : "a\nb.mp4" ∈ root.paths := by rw [paths]; exact List.mem_singleton_self _
  have inputs : graph.inputs = root.paths := (compile_eq_ok_iff.mp ready.2).inputs_eq
  refine ⟨after, root, renders, ready.1, member, ?_⟩
  rw [← Job.leaves_of_ok renders] at reports
  rw [Job.told_eq reports, exposes_render_iff rfl, inputs]
  exact .inr ⟨rfl, .inr (.inl ⟨_, member, by decide⟩)⟩

end Program

end Montage
