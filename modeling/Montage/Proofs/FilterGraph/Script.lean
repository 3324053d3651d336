import Montage.Proofs.FilterGraph.Expression

/-!
# Reading argument lists

An argument list is read by position: pairs of `-i` and a path, then the text
of the filter graph, then the label that is mapped.  Whatever the paths are,
reading the arguments of a graph gives back its inputs, and its filters and its
output as far as texts tell them.
-/

namespace Montage

/-- What an argument list says: the inputs, the expressions in order, and the
stream that is mapped. -/
structure Script where
  inputs : List String
  expressions : List Expression
  mapped : Stream
deriving DecidableEq, Repr

def readLabel? (text : String) : Option Stream :=
  match pieces? text with
  | some [.label name] => Stream.read? name
  | _ => none

/-- The expressions of a filter graph's text, which semicolons divide. -/
def readExpressions? (text : String) : Option (List Expression) :=
  ((text.toList.splitOn ';').map String.ofList).mapM Expression.read?

def Script.read? : List String → Option Script
  | ["-filter_complex", text, "-map", label] => do
      let expressions ← readExpressions? text
      let mapped ← readLabel? label
      return ⟨[], expressions, mapped⟩
  | "-i" :: path :: rest => do
      let script ← Script.read? rest
      return { script with inputs := path :: script.inputs }
  | _ => none

/-! ## What is written -/

def Graph.texts (graph : Graph) : List String := graph.filters.map Filter.text

theorem filters_length_eq {first second : List Filter}
    (texts : first.map Filter.text = second.map Filter.text) :
    first.length = second.length := by
  have lengths := congrArg List.length texts
  rwa [List.length_map, List.length_map] at lengths

/-- The graph as it is handed over: one without filters gets one that passes
its output on. -/
def Graph.completed (graph : Graph) : Graph :=
  if graph.filters.isEmpty then
    { graph with
      filters := [⟨[graph.output], .pass, 0⟩]
      output := .stage 0 }
  else graph

def Graph.script (graph : Graph) : Script :=
  { inputs := graph.inputs
    expressions := graph.filters.map Filter.expression
    mapped := graph.output }

theorem Graph.completed_filters_ne_nil (graph : Graph) :
    graph.completed.filters ≠ [] := by
  unfold Graph.completed
  split
  · simp
  · rename_i notEmpty
    simpa using notEmpty

@[simp] theorem Graph.completed_inputs (graph : Graph) :
    graph.completed.inputs = graph.inputs := by
  unfold Graph.completed
  split <;> rfl

theorem Graph.arguments_eq (graph : Graph) :
    graph.arguments =
      graph.inputs.flatMap (fun path => ["-i", path]) ++
        ["-filter_complex",
          String.intercalate ";" (graph.completed.filters.map Filter.text),
          "-map", graph.completed.output.label] := by
  by_cases empty : graph.filters = []
  · simp [Graph.arguments, assemble, Graph.completed, empty, Filter.text,
      Stream.label, filterSeparator]
  · simp [Graph.arguments, assemble, Graph.completed, empty, Stream.label,
      filterSeparator]

/-! ## Reading it back -/

theorem readLabel?_label (stream : Stream) :
    readLabel? stream.label = some stream := by
  have closed : ']' ∉ stream.name.toList := stream.name_numeric.not_mem rfl
  have pieces : pieces? stream.label = some [.label stream.name.toList] := by
    have scanned := scan_label [] [] closed
    simpa [pieces?, Stream.label_characters, Stream.piece, scan] using scanned
  simp [readLabel?, pieces]

theorem mapM_text_eq (filters : List Filter) :
    (filters.map Filter.text).mapM Expression.read? =
      some (filters.map Filter.expression) := by
  induction filters with
  | nil => rfl
  | cons filter filters induction =>
      simp [Expression.read?_text, induction]

/-- What divides expressions occurs in none of them. -/
theorem splitOn_intercalate_texts {filters : List Filter} (nonempty : filters ≠ []) :
    ((String.intercalate ";" (filters.map Filter.text)).toList.splitOn ';').map String.ofList =
      filters.map Filter.text := by
  have divided : (String.intercalate ";" (filters.map Filter.text)).toList.splitOn ';' =
      (filters.map Filter.text).map String.toList := by
    rw [String.toList_intercalate]
    apply List.splitOn_intercalate
    · intro characters member
      rw [List.map_map] at member
      obtain ⟨filter, _, rfl⟩ := List.mem_map.mp member
      exact filter.separator_not_mem_text
    · simpa using nonempty
  rw [divided, List.map_map]
  simp only [Function.comp_def, String.ofList_toList, List.map_id']

theorem readExpressions?_intercalate {filters : List Filter}
    (nonempty : filters ≠ []) :
    readExpressions? (String.intercalate ";" (filters.map Filter.text)) =
      some (filters.map Filter.expression) := by
  rw [readExpressions?, splitOn_intercalate_texts nonempty, mapM_text_eq]

theorem Script.read?_inputs (paths rest : List String) {script : Script}
    (tail : Script.read? rest = some script) :
    Script.read? (paths.flatMap (fun path => ["-i", path]) ++ rest) =
      some { script with inputs := paths ++ script.inputs } := by
  induction paths with
  | nil => simpa using tail
  | cons path paths induction =>
      simp [Script.read?, induction]

/-- The arguments of a graph say what the completed graph holds. -/
theorem Script.read?_arguments (graph : Graph) :
    Script.read? graph.arguments = some graph.completed.script := by
  have tail : Script.read?
      ["-filter_complex",
        String.intercalate ";" (graph.completed.filters.map Filter.text),
        "-map", graph.completed.output.label] =
      some ⟨[], graph.completed.filters.map Filter.expression,
        graph.completed.output⟩ := by
    rw [Script.read?, readExpressions?_intercalate graph.completed_filters_ne_nil,
      readLabel?_label]
    rfl
  rw [Graph.arguments_eq, Script.read?_inputs graph.inputs _ tail]
  simp [Graph.script]

example :
    Script.read? ["-i", "-map", "-filter_complex", "[0]null[s0]", "-map", "[s0]"] =
      some ⟨["-map"], [⟨[.input 0], .pass, .stage 0⟩], .stage 0⟩ := by
  decide

end Montage
