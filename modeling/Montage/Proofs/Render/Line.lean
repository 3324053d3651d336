import Montage.Proofs.CommandLine.Paste
import Montage.Proofs.FilterGraph.Derivation
import Montage.Proofs.FilterGraph.Script
import Montage.Proofs.Render.Plan

/-!
# Pasting the line that describes a render

Among the arguments of a render only paths can begin with a dash without being
options.  Unless one of them does, and is not bare, the line can be pasted
exactly if the program is bare.
-/

namespace Montage

open Shell (Bare Dashed Pastable)

/-! ## The arguments of a render -/

theorem Stream.label_undashed (stream : Stream) : ¬ Dashed stream.label.toList := by
  rw [stream.label_characters]
  simp [Dashed, piece, Piece.characters]

theorem Operation.text_undashed (operation : Operation) (rest : List Char) :
    ¬ Dashed (operation.text.toList ++ rest) := by
  rcases operation with ⟨_ | _, count⟩ | position | _ <;>
    simp [Dashed, Operation.text, Axis.name]

theorem Filter.text_undashed (filter : Filter) (rest : List Char) :
    ¬ Dashed (filter.text.toList ++ rest) := by
  obtain ⟨sources, operation, target⟩ := filter
  cases sources with
  | nil =>
      simp only [Filter.text, List.map_nil, String.join_nil, String.empty_append,
        String.toList_append, List.append_assoc]
      exact operation.text_undashed _
  | cons source sources =>
      rw [Filter.text_characters]
      simp [Dashed, Filter.pieces, Stream.piece, Piece.characters]

theorem Graph.expressions_undashed (graph : Graph) :
    ¬ Dashed (String.intercalate ";" (graph.completed.filters.map Filter.text)).toList := by
  rw [String.toList_intercalate]
  obtain ⟨filter, rest, filters⟩ := List.exists_cons_of_ne_nil graph.completed_filters_ne_nil
  rw [filters, List.map_cons, List.map_cons]
  cases rest with
  | nil => simpa using filter.text_undashed []
  | cons next rest =>
      rw [List.map_cons, List.map_cons, List.intercalate_cons_cons, List.append_assoc]
      exact filter.text_undashed _

theorem pastable_of_undashed {argument : List Char} (undashed : ¬ Dashed argument) :
    Pastable argument := fun dashed => absurd dashed undashed

theorem Render.arguments_pastable_iff (graph : Graph) (overwrite : Bool)
    (outputPath : String) :
    (∀ argument ∈ arguments graph overwrite outputPath, Pastable argument.toList) ↔
      (∀ path ∈ graph.inputs, Pastable path.toList) ∧ Pastable outputPath.toList := by
  apply forall_mem_arguments_iff
  · decide
  · exact pastable_of_undashed graph.expressions_undashed
  · exact pastable_of_undashed graph.completed.output.label_undashed

theorem Render.exists_dashed_argument (graph : Graph) (overwrite : Bool)
    (outputPath : String) :
    ∃ first rest, arguments graph overwrite outputPath = first :: rest ∧
      Dashed first.toList := by
  rw [arguments, Graph.arguments_eq]
  cases overwrite with
  | true => exact ⟨_, _, rfl, by decide⟩
  | false =>
      cases graph.inputs with
      | nil => exact ⟨_, _, rfl, by decide⟩
      | cons path rest => exact ⟨_, _, rfl, by decide⟩

/-! ## The line -/

/-- What a render prints: its plan, the name of the program, and the line that
shows both. -/
def Render.Prints (root : Node) (options : RenderOptions) (world : World)
    (planned : RenderPlan) (program line : String) : Prop :=
  ∃ planning after,
    plan root options world = .ok planned planning ∧
      Ffmpeg.program planning = .ok program after ∧
      describe root options world = .ok line after

/-- Every composition that compiles has its line.  Where each path that begins
with a dash is bare, a shell reads that line as the program and its arguments
exactly if the program is bare. -/
theorem Render.printed_line_pastes_iff {root : Node} {graph : Graph}
    (compiled : root.compile = .ok graph) (options : RenderOptions) (world : World)
    (paths : ∀ path ∈ root.paths, Pastable path.toList)
    (output : Pastable (options.outputPath.getD world.currentSettings.outputPath).toList) :
    ∃ planned program line, Prints root options world planned program line ∧
      (Shell.read line = .ok (program :: planned.arguments) ↔ Bare program.toList) := by
  obtain ⟨after, named, described⟩ := run_describe compiled options world
  refine ⟨_, _, _, ⟨_, after, run_plan compiled options world, named, described⟩, ?_⟩
  let overwrite := options.overwrite.getD world.currentSettings.overwrite
  let outputPath := options.outputPath.getD world.currentSettings.outputPath
  rw [← (compile_eq_ok_iff.mp compiled).inputs_eq] at paths
  have pastable := (arguments_pastable_iff graph overwrite outputPath).mpr ⟨paths, output⟩
  obtain ⟨first, rest, begins, dashed⟩ := exists_dashed_argument graph overwrite outputPath
  have pasted := Shell.read_format_iff world.currentSettings.programName rest dashed
  rw [← begins, and_iff_left pastable] at pasted
  exact pasted

def quotedClip : Node := .resource "a \"$1\" clip.mp4" .origin

theorem quotedClip_printed_line_pastes :
    quotedClip.compile = .ok ⟨["a \"$1\" clip.mp4"], [], .input 0, []⟩ ∧
      (∀ path ∈ quotedClip.paths, Pastable path.toList) ∧
      Pastable (Render.noOptions.outputPath.getD
        World.empty.currentSettings.outputPath).toList ∧
      ∃ planned line,
        Render.Prints quotedClip Render.noOptions World.empty planned "ffmpeg" line ∧
          Shell.read line = .ok ("ffmpeg" :: planned.arguments) := by
  have compiled : quotedClip.compile = .ok ⟨["a \"$1\" clip.mp4"], [], .input 0, []⟩ := rfl
  have paths : ∀ path ∈ quotedClip.paths, Pastable path.toList := by decide
  have output : Pastable (Render.noOptions.outputPath.getD
      World.empty.currentSettings.outputPath).toList := by decide
  obtain ⟨planned, program, line, prints, pasted⟩ :=
    Render.printed_line_pastes_iff compiled Render.noOptions World.empty paths output
  have named : program = "ffmpeg" := by
    obtain ⟨planning, after, planned, named, _⟩ := prints
    cases planned
    cases named
    rfl
  subst named
  exact ⟨compiled, paths, output, planned, line, prints, pasted.mpr (by decide)⟩

/-- The name of a program is printed as it is, so a blank in it divides it. -/
def spacedProgram : World :=
  { World.empty with environment := [("FFMPEG_PATH", "/opt/my tools/ffmpeg")] }

def substitutingPath : String := "-$(id).mp4"

/-- A program with a blank in it is not read as one word, and a media path or an
output path that begins with a dash can be read as an expansion. -/
theorem printed_line_may_not_paste :
    (∃ planned program line,
      Render.Prints (.resource "clip.mp4" .origin) Render.noOptions spacedProgram
          planned program line ∧
        Shell.read line ≠ .ok (program :: planned.arguments)) ∧
    (∃ planned program line,
      Render.Prints (.resource substitutingPath .origin) Render.noOptions World.empty
          planned program line ∧
        Shell.read line = .error .expansion) ∧
    (∃ planned program line,
      Render.Prints (.resource "clip.mp4" .origin) ⟨some substitutingPath, none⟩ World.empty
          planned program line ∧
        Shell.read line = .error .expansion) :=
  ⟨⟨_, _, _, ⟨_, _, rfl, rfl, rfl⟩, by decide⟩,
    ⟨_, _, _, ⟨_, _, rfl, rfl, rfl⟩, by decide⟩,
    ⟨_, _, _, ⟨_, _, rfl, rfl, rfl⟩, by decide⟩⟩

end Montage
