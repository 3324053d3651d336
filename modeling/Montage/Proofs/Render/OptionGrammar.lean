import Montage.Proofs.FilterGraph.Script
import Montage.Proofs.Render.Plan

/-!
# Reading arguments by the grammar of options

FFmpeg reads its arguments from left to right.  A word of two or more characters
that begins with a dash is an option, and some options take the next word as
their value, whatever it is.  Any other word names an output file.  The
arguments of a plan read back as what was planned exactly if the output path
is no option.
-/

namespace Montage

namespace OptionGrammar

/-- What arguments direct FFmpeg to do, one directive for each option with its
value and for each output file. -/
inductive Directive where
  | overwrite
  | input (path : String)
  | filterGraph (text : String)
  | mapping (label : String)
  | output (path : String)
deriving DecidableEq, Repr

inductive Fault where
  | unknownOption (word : String)
  | missingValue (option : String)
deriving DecidableEq, Repr

def isOption (word : String) : Bool :=
  match word.toList with
  | '-' :: _ :: _ => true
  | _ => false

/-- What an option that takes a value says with it. -/
def valued? : String → Option (String → Directive)
  | "-i" => some .input
  | "-filter_complex" => some .filterGraph
  | "-map" => some .mapping
  | _ => none

def read : List String → Except Fault (List Directive)
  | [] => .ok []
  | word :: rest =>
      if isOption word then
        if word = "-y" then (.overwrite :: ·) <$> read rest
        else
          match valued? word with
          | none => .error (.unknownOption word)
          | some directive =>
              match rest with
              | [] => .error (.missingValue word)
              | value :: later => (directive value :: ·) <$> read later
      else (.output word :: ·) <$> read rest

theorem read_of_valued {option : String} {directive : String → Directive}
    (isOne : isOption option = true) (different : option ≠ "-y")
    (takes : valued? option = some directive) (value : String) (rest : List String) :
    read (option :: value :: rest) = (directive value :: ·) <$> read rest := by
  simp only [read, isOne, different, takes, if_true, if_false]

theorem read_leave (overwrite : Bool) (rest : List String) :
    read ((if overwrite then ["-y"] else []) ++ rest) =
      ((if overwrite then [.overwrite] else []) ++ ·) <$> read rest := by
  cases overwrite with
  | true => rfl
  | false => exact (id_map (read rest)).symm

theorem read_inputs (paths rest : List String) :
    read (paths.flatMap (fun path => ["-i", path]) ++ rest) =
      (paths.map .input ++ ·) <$> read rest := by
  induction paths with
  | nil => exact (id_map (read rest)).symm
  | cons path paths induction =>
      have takes : valued? "-i" = some .input := rfl
      rw [List.flatMap_cons, List.append_assoc, List.cons_append, List.singleton_append,
        read_of_valued (by decide) (by decide) takes, induction, Functor.map_map]
      rfl

theorem read_output {path : String} (plain : isOption path = false) :
    read [path] = .ok [.output path] := by
  rw [read, plain]
  rfl

/-- A last word that is an option names no output file. -/
theorem read_last_option {word : String} (isOne : isOption word = true) :
    read [word] = .ok [.overwrite] ∨ ∃ fault, read [word] = .error fault := by
  by_cases overwrites : word = "-y"
  · subst overwrites
    exact .inl rfl
  · right
    cases takes : valued? word with
    | none =>
        refine ⟨.unknownOption word, ?_⟩
        simp only [read, isOne, overwrites, takes, if_true, if_false]
    | some directive =>
        refine ⟨.missingValue word, ?_⟩
        simp only [read, isOne, overwrites, takes, if_true, if_false]

/-! ## The arguments of a plan -/

/-- What is said before the output file: leave to overwrite, the inputs in the
order of their slots, one filter graph and one mapping. -/
def graphDirectives (graph : Graph) (overwrite : Bool) : List Directive :=
  (if overwrite then [.overwrite] else []) ++ graph.inputs.map .input ++
    [.filterGraph (String.intercalate filterSeparator (graph.completed.filters.map Filter.text)),
      .mapping graph.completed.output.label]

theorem read_arguments (graph : Graph) (overwrite : Bool) (outputPath : String) :
    read (Render.arguments graph overwrite outputPath) =
      (graphDirectives graph overwrite ++ ·) <$> read [outputPath] := by
  have filters : valued? "-filter_complex" = some .filterGraph := rfl
  have maps : valued? "-map" = some .mapping := rfl
  rw [Render.arguments, Graph.arguments_eq, List.append_assoc, List.append_assoc, read_leave,
    read_inputs, List.cons_append, List.cons_append,
    read_of_valued (by decide) (by decide) filters, List.cons_append, List.cons_append,
    read_of_valued (by decide) (by decide) maps, List.nil_append]
  simp only [Functor.map_map]
  congr 1
  funext final
  simp [graphDirectives, filterSeparator]

theorem read_arguments_iff (graph : Graph) (overwrite : Bool) (outputPath : String) :
    read (Render.arguments graph overwrite outputPath) =
        .ok (graphDirectives graph overwrite ++ [.output outputPath]) ↔
      isOption outputPath = false := by
  rw [read_arguments]
  cases found : isOption outputPath with
  | false =>
      rw [read_output found]
      exact ⟨fun _ => rfl, fun _ => rfl⟩
  | true =>
      refine ⟨fun impossible => ?_, fun impossible => by cases impossible⟩
      rcases read_last_option found with overwrites | ⟨fault, failed⟩
      · rw [overwrites] at impossible
        have same := List.append_cancel_left (Except.ok.inj impossible)
        cases same
      · rw [failed] at impossible
        cases impossible

end OptionGrammar

open OptionGrammar (graphDirectives isOption)

/-- The arguments of every plan name its inputs, its graph and the stream that
is mapped.  They read back as the whole plan, with its output file as the last
word, exactly if the output path is no option. -/
theorem Render.plan_reads_back_iff {root : Node} {graph : Graph}
    (compiled : root.compile = .ok graph) (options : RenderOptions) (world : World) :
    ∃ planned after, plan root options world = .ok planned after ∧
      planned.graph = graph ∧
      planned.outputPath = options.outputPath.getD world.currentSettings.outputPath ∧
      (OptionGrammar.read planned.arguments =
          .ok (graphDirectives graph (options.overwrite.getD world.currentSettings.overwrite) ++
            [.output planned.outputPath]) ↔
        isOption planned.outputPath = false) :=
  ⟨_, _, run_plan compiled options world, rfl, rfl, OptionGrammar.read_arguments_iff _ _ _⟩

/-- Media files whose paths look like options. -/
def dashedClips : Node :=
  .stack (.linear .horizontal) [.resource "-i" .origin, .resource "-map" .origin] .origin

def dashedClipsGraph : Graph :=
  { inputs := ["-i", "-map"]
    filters := [⟨[.input 0, .input 1], .stack .horizontal 2, 0⟩]
    output := .stage 0
    warnings := [] }

theorem dashedClips_plan_reads_back :
    dashedClips.compile = .ok dashedClipsGraph ∧
      ∃ planned after, Render.plan dashedClips ⟨some "-", none⟩ World.empty = .ok planned after ∧
        planned.outputPath = "-" ∧
        OptionGrammar.read planned.arguments =
          .ok [.overwrite, .input "-i", .input "-map",
            .filterGraph "[0][1]hstack=inputs=2[s0]", .mapping "[s0]", .output "-"] := by
  have compiled : dashedClips.compile = .ok dashedClipsGraph := rfl
  obtain ⟨planned, after, ran, _, path, reads⟩ :=
    Render.plan_reads_back_iff compiled ⟨some "-", none⟩ World.empty
  have noOption : isOption planned.outputPath = false := by
    rw [path]
    rfl
  have read := reads.mpr noOption
  rw [path] at read
  exact ⟨compiled, planned, after, ran, path, read⟩

/-- An output path that is read as an option names no output file: it can give
leave to overwrite that was not given, or be no option that is known. -/
theorem plan_may_name_no_output :
    (∃ planned after,
      Render.plan (.resource "clip.mp4" .origin) ⟨some "-y", some false⟩ World.empty =
          .ok planned after ∧
        OptionGrammar.read planned.arguments =
          .ok [.input "clip.mp4", .filterGraph "[0]null[s0]", .mapping "[s0]", .overwrite]) ∧
    (∃ planned after,
      Render.plan (.resource "clip.mp4" .origin) ⟨some "-clip.mp4", none⟩ World.empty =
          .ok planned after ∧
        OptionGrammar.read planned.arguments = .error (.unknownOption "-clip.mp4")) :=
  ⟨⟨_, _, rfl, rfl⟩, ⟨_, _, rfl, rfl⟩⟩

end Montage
