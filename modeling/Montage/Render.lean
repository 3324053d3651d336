import Montage.CommandLine.Quote
import Montage.Ffmpeg
import Montage.FilterGraph.Arguments
import Montage.FilterGraph.Compile
import Montage.Host.Files
import Montage.Text.Escape

/-!
# Rendering compositions

A composition is planned before anything is run: its graph, the arguments that
FFmpeg is given, and the file that is written.  A plan can be shown as a
command line or carried out.
-/

namespace Montage

/-- What a caller asks of a render; the settings answer for the rest. -/
structure RenderOptions where
  outputPath : Option String
  overwrite : Option Bool
deriving DecidableEq, Repr, Inhabited

structure RenderPlan where
  graph : Graph
  arguments : List String
  outputPath : String
deriving DecidableEq, Repr

namespace Render

def noOptions : RenderOptions := ⟨none, none⟩

/-- The arguments of a graph, with leave to overwrite before them and the
output path after them. -/
def arguments (graph : Graph) (overwrite : Bool) (outputPath : String) : List String :=
  (if overwrite then ["-y"] else []) ++ graph.arguments ++ [outputPath]

/-- The record that counts a graph. -/
def summary (graph : Graph) : String :=
  "[Composition] Compiled " ++ toString graph.inputs.length ++ " inputs, " ++
    toString graph.filters.length ++ " filters → " ++ graph.output.label

/-- The record that shows a graph. -/
def listing (graph : Graph) : String :=
  "[Composition] ── filter_complex ──\n" ++
    String.intercalate (filterSeparator ++ "\n") (graph.filters.map Filter.text) ++
    "\n── END filter_complex ──"

def logWarnings : List Warning → Job Unit
  | [] => pure ()
  | warning :: rest => do
      Job.log .warn ("[Composition] " ++ warning.message)
      logWarnings rest

def plan (root : Node) (options : RenderOptions) : Job RenderPlan := do
  let settings ← Job.settings
  let outputPath := options.outputPath.getD settings.outputPath
  let overwrite := options.overwrite.getD settings.overwrite
  let graph ← Job.ofExcept .composition root.compile
  Job.log .info (summary graph)
  Job.log .debug (listing graph)
  logWarnings graph.warnings
  return ⟨graph, arguments graph overwrite outputPath, outputPath⟩

/-- The command line that renders a composition. -/
def describe (root : Node) (options : RenderOptions) : Job String := do
  let planned ← plan root options
  let program ← Ffmpeg.program
  return CommandLine.format program planned.arguments

/-- Renders a composition and returns the path of the file written.  The
directory of that file is made first. -/
def run (root : Node) (options : RenderOptions) : Job String := do
  let planned ← plan root options
  let target ← Job.resolve planned.outputPath
  let path := Path.ofLocation target
  Job.makeDirectories (Path.ofLocation target.dropLast)
  Job.log .info ("[Composition] Rendering → " ++ Text.oneLine path)
  try Ffmpeg.run planned.arguments
  catch cause => Job.fail (.render cause)
  Job.log .info ("[Composition] Complete: " ++ Text.oneLine path)
  return path

end Render

end Montage
