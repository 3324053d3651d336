import Montage.FilterGraph.Basic

/-!
# The arguments of a filter graph

A graph is handed over as one `-i` for each input, one `-filter_complex` with
all filters, and one `-map` for the stream to be written.
-/

namespace Montage

def filterSeparator : String := ";"

/-- Arguments for inputs, filters and an output given as texts.  A graph
without filters gets one that passes its output on, so that a stage is mapped
in any case. -/
def assemble (inputs filters : List String) (output : String) : List String :=
  let mapped := if filters.isEmpty then (Stream.stage 0).name else output
  let expressions :=
    if filters.isEmpty then
      [labelled output ++ Operation.pass.text ++ (Stream.stage 0).label]
    else filters
  inputs.flatMap (fun path => ["-i", path]) ++
    ["-filter_complex", String.intercalate filterSeparator expressions,
      "-map", labelled mapped]

def Graph.arguments (graph : Graph) : List String :=
  assemble graph.inputs (graph.filters.map Filter.text) graph.output.name

end Montage
