import Montage.Proofs.FilterGraph.Accounting

/-!
# Graphs read back from their arguments

The arguments of a compiled graph tell all that is written of it.  The borders between
filters are kept, since none of them contains a separator.  That a graph has no filters
is kept as well: it is handed over with a filter that passes its output on, and no
compiled filter does that.
-/

namespace Montage

/-- What is written of a graph: its inputs, the texts of its filters, and its output. -/
structure Transcript where
  inputs : List String
  texts : List String
  output : Stream
deriving DecidableEq, Repr

def Graph.transcript (graph : Graph) : Transcript :=
  ⟨graph.inputs, graph.texts, graph.output⟩

/-! ## The reader -/

/-- The paths of an argument list, the text of its filter graph, and the label that it
maps. -/
def readByPosition? : List String → Option (List String × String × String)
  | ["-filter_complex", text, "-map", label] => some ([], text, label)
  | "-i" :: path :: rest => (readByPosition? rest).map fun (paths, last) => (path :: paths, last)
  | _ => none

/-- The stream that a text passes on to the first stage, if that is all it does. -/
def passedOn? (text : String) : Option Stream :=
  match Expression.read? text with
  | some ⟨[source], .pass, .stage 0⟩ => some source
  | _ => none

/-- Reads an argument list.  A single text that passes a stream on stands for no filters. -/
def Transcript.read? (arguments : List String) : Option Transcript := do
  let (inputs, text, label) ← readByPosition? arguments
  let mapped ← readLabel? label
  let texts := (text.toList.splitOn ';').map String.ofList
  match texts.map passedOn? with
  | [some source] => return ⟨inputs, [], source⟩
  | _ => return ⟨inputs, texts, mapped⟩

theorem readByPosition?_inputs (paths : List String) (text label : String) :
    readByPosition? (paths.flatMap (fun path => ["-i", path]) ++
      ["-filter_complex", text, "-map", label]) = some (paths, text, label) := by
  induction paths with
  | nil => simp [readByPosition?]
  | cons path rest induction => simp [readByPosition?, induction]

/-! ## What compiled graphs look like -/

theorem passedOn?_pass (stream : Stream) :
    passedOn? (Filter.text ⟨[stream], .pass, 0⟩) = some stream := by
  rw [passedOn?, Expression.read?_text]
  rfl

theorem passedOn?_text {filter : Filter} (active : filter.operation ≠ .pass) :
    passedOn? filter.text = none := by
  obtain ⟨sources, operation, target⟩ := filter
  rw [passedOn?, Expression.read?_text]
  cases operation with
  | stack axis count => simp [Filter.expression, Operation.action]
  | overlay position => simp [Filter.expression, Operation.action]
  | pass => exact absurd rfl active

theorem map_passedOn?_texts {filters : List Filter}
    (active : ∀ filter ∈ filters, filter.operation ≠ .pass) :
    (filters.map Filter.text).map passedOn? = filters.map fun _ => none := by
  rw [List.map_map]
  exact List.map_congr_left fun filter member => passedOn?_text (active filter member)

/-- Reading the arguments of a graph gives back what is written of it, if none of its own
filters merely passes a stream on. -/
theorem Transcript.read?_arguments {graph : Graph}
    (active : ∀ filter ∈ graph.filters, filter.operation ≠ .pass) :
    Transcript.read? graph.arguments = some graph.transcript := by
  have texts := splitOn_intercalate_texts graph.completed_filters_ne_nil
  have label := readLabel?_label graph.completed.output
  rw [Graph.arguments_eq, Transcript.read?, readByPosition?_inputs]
  simp only [Option.bind_eq_bind, Option.bind_some, texts, label]
  by_cases empty : graph.filters = []
  · have passed : graph.completed.filters = [⟨[graph.output], .pass, 0⟩] := by
      simp [Graph.completed, empty]
    rw [passed, List.map_singleton, List.map_singleton, passedOn?_pass]
    simp [Graph.transcript, Graph.texts, empty]
  · have unchanged : graph.completed = graph := by
      simp [Graph.completed, empty]
    rw [unchanged, map_passedOn?_texts active]
    split
    · next source single =>
        have listed : some source ∈ graph.filters.map fun _ => none :=
          single ▸ List.mem_singleton_self _
        simp at listed
    · rfl

theorem Node.singleAxis?_eq (node : Node) :
    node.singleAxis? = (node.row?.filter fun row => row.2 = 1).map (·.1) := by
  match node with
  | .resource path offset => rfl
  | .stack (.linear axis) [] offset => rfl
  | .stack (.linear axis) [child] offset => rfl
  | .stack (.linear axis) (first :: second :: rest) offset =>
      simp [singleAxis?, row?, Option.filter]
  | .stack .layered children offset => rfl

/-- The warnings of a graph are told by the texts of its filters. -/
theorem Compiles.warnings_eq {slot stage : Nat} {node : Node} {graph : Graph}
    (compiles : Compiles slot stage node graph) :
    graph.warnings =
      ((graph.texts.filterMap fun text => (Expression.read? text).bind Expression.row?).filter
        fun row => row.2 = 1).map fun row => .singleChild row.1 := by
  have added := compiles.added
  rw [graph.filterMap_row?_texts, added.rows, added.warnings, List.filter_filterMap,
    List.map_filterMap, List.map_filterMap]
  simp only [Node.singleAxis?_eq, Option.map_map, Function.comp_def]

/-- The arguments of every tree without empty stacks tell what is written of its graph,
whatever its paths are, and no text of its filters could be taken for the one that stands
for no filters.  So trees with the same arguments have the same graph as far as it is
written, and the same warnings. -/
theorem arguments_tell_graph (root : Node) (populated : root.Populated) :
    ∃ graph, root.compile = .ok graph ∧
      Transcript.read? graph.arguments = some graph.transcript ∧
      (∀ text ∈ graph.texts, passedOn? text = none) ∧
      ∀ (other : Node) (otherGraph : Graph), other.compile = .ok otherGraph →
        otherGraph.arguments = graph.arguments →
        otherGraph.transcript = graph.transcript ∧ otherGraph.warnings = graph.warnings := by
  obtain ⟨graph, compiles⟩ := populated.compiles 0 0
  have active := compiles.added.active
  have told := Transcript.read?_arguments active
  refine ⟨graph, compile_eq_ok_iff.mpr compiles, told, ?_, ?_⟩
  · intro text member
    obtain ⟨filter, listed, rfl⟩ := List.mem_map.mp member
    exact passedOn?_text (active filter listed)
  · intro other otherGraph compiled sameArguments
    have otherCompiles := compile_eq_ok_iff.mp compiled
    have otherTold := Transcript.read?_arguments otherCompiles.added.active
    rw [sameArguments, told, Option.some.injEq] at otherTold
    have texts : otherGraph.texts = graph.texts := (congrArg Transcript.texts otherTold).symm
    refine ⟨otherTold.symm, ?_⟩
    rw [otherCompiles.warnings_eq, compiles.warnings_eq, texts]

/-- One clip alone, at a path like an option. -/
def optionalClip : Node := zstack [.node (resource "-filter_complex")]

def optionalClipGraph : Graph := ⟨["-filter_complex"], [], .input 0, []⟩

/-- A column and a clip on a row, at paths like options and like filters. -/
def optionalLayers : Node :=
  zstack [
    .node (hstack [.node (resource "-i"), .node (resource "[0]null[s0]")]),
    .node ((vstack [.node (resource "-map"), .node (resource ";")]).place (.pixels 10 20)),
    .node (resource "")]

def optionalLayersGraph : Graph where
  inputs := ["-i", "[0]null[s0]", "-map", ";", ""]
  filters := [
    ⟨[.input 0, .input 1], .stack .horizontal 2, 0⟩,
    ⟨[.input 2, .input 3], .stack .vertical 2, 1⟩,
    ⟨[.stage 0, .stage 1], .overlay (.pixels 10 20), 2⟩,
    ⟨[.stage 2, .input 4], .overlay .origin, 3⟩]
  output := .stage 3
  warnings := []

/-- The arguments of a graph without filters and of one with several of them are told apart
from all others. -/
theorem optional_paths_told :
    (optionalClip.Populated ∧ optionalClip.compile = .ok optionalClipGraph ∧
      Transcript.read? optionalClipGraph.arguments = some optionalClipGraph.transcript ∧
      (∀ text ∈ optionalClipGraph.texts, passedOn? text = none) ∧
      ∀ (other : Node) (otherGraph : Graph), other.compile = .ok otherGraph →
        otherGraph.arguments = optionalClipGraph.arguments →
        otherGraph.transcript = optionalClipGraph.transcript ∧
          otherGraph.warnings = optionalClipGraph.warnings) ∧
    optionalLayers.Populated ∧ optionalLayers.compile = .ok optionalLayersGraph ∧
      Transcript.read? optionalLayersGraph.arguments = some optionalLayersGraph.transcript ∧
      (∀ text ∈ optionalLayersGraph.texts, passedOn? text = none) ∧
      ∀ (other : Node) (otherGraph : Graph), other.compile = .ok otherGraph →
        otherGraph.arguments = optionalLayersGraph.arguments →
        otherGraph.transcript = optionalLayersGraph.transcript ∧
          otherGraph.warnings = optionalLayersGraph.warnings := by
  have clip : optionalClip.compile = .ok optionalClipGraph := by decide
  have layers : optionalLayers.compile = .ok optionalLayersGraph := by decide
  obtain ⟨clipGraph, clipCompiled, clipTold⟩ := arguments_tell_graph optionalClip (by decide)
  obtain ⟨layersGraph, layersCompiled, layersTold⟩ :=
    arguments_tell_graph optionalLayers (by decide)
  cases clip.symm.trans clipCompiled
  cases layers.symm.trans layersCompiled
  exact ⟨⟨by decide, clip, clipTold⟩, by decide, layers, layersTold⟩

end Montage
