import Montage.Text.Blank
import Montage.Text.Utf8
import Montage.Number.Shortest
import Montage.Value.Shown
import Montage.Value.Reader
import Montage.Value.Writer
import Montage.Composition.Keynotes
import Montage.FilterGraph.Compile
import Montage.FilterGraph.Arguments
import Montage.CommandLine.Quote
import Montage.Scene.Document
import Montage.Host.FileSystem
import Montage.Host.World
import Montage.Host.Process
import Montage.Host.Files
import Montage.Text.Escape
import Montage.Text.Units
import Montage.Text.Quoted
import Montage.Version
import Montage.Settings.EnvFile
import Montage.Render
import Montage.Scene.Lookup
import Montage.Doctor
import Montage.CommandLine.Switch
import Montage.CommandLine.Suggestion
import Montage.CommandLine.Invocation
import Montage.Program
import Montage.Main
import Montage.Scene.Bundled
import Montage.Proofs.Number.Characters
import Montage.Proofs.FilterGraph.Derivation
import Montage.Proofs.FilterGraph.Expression
import Montage.Proofs.FilterGraph.Script
import Montage.Proofs.FilterGraph.Linearity
import Montage.Proofs.FilterGraph.Picture
import Montage.Proofs.FilterGraph.Relabelling
import Montage.Proofs.FilterGraph.NormalForm
import Montage.Proofs.FilterGraph.EmptyStack
import Montage.Proofs.FilterGraph.Influence
import Montage.Proofs.Scene.Grammar
import Montage.Proofs.CommandLine.Shell
import Montage.Proofs.CommandLine.Paste
import Montage.Proofs.Render.Plan
import Montage.Proofs.Render.Line
import Montage.Proofs.Render.OptionGrammar
import Montage.Proofs.Composition.Desugaring
import Montage.Proofs.Host.NullFree
import Montage.Proofs.Host.Effects
import Montage.Proofs.Scene.Loading
import Montage.Proofs.Render.Running
import Montage.Proofs.Program.Preparation
import Montage.Proofs.Program.Preview
import Montage.Proofs.Program.Rendering
import Montage.Proofs.Number.Rounding
import Montage.Proofs.Path.Route
import Montage.Proofs.Scene.Containment
import Montage.Proofs.Scene.Offence
import Montage.Proofs.Scene.Place
import Montage.Proofs.Scene.Quoting
import Montage.Proofs.Scene.Storage
import Montage.Proofs.Number.Shortest
import Montage.Proofs.Number.Reading
import Montage.Proofs.Value.Reloading
import Montage.Proofs.Text.Utf8
import Montage.Proofs.Composition.Settling
import Montage.Proofs.Composition.Reloading
import Montage.Proofs.Host.Records
import Montage.Proofs.Program.Conduct
import Montage.Proofs.Program.History
import Montage.Proofs.Program.Verbosity
import Montage.Proofs.Program.Reports
import Montage.Proofs.Text.Escape
import Montage.Proofs.Program.Logging
import Montage.Proofs.Program.Output
import Montage.Proofs.FilterGraph.Accounting
import Montage.Proofs.FilterGraph.Transcript
import Montage.Proofs.CommandLine.Recovery
import Montage.Proofs.Version
import Montage.Proofs.Program.Checkup
import Montage.Proofs.Host.Root
import Montage.Proofs.Text.Pattern
