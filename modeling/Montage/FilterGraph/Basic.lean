import Montage.Composition.Node
import Montage.Number.Shortest

/-!
# Filter graphs

A filter graph takes the streams of its inputs through a list of filters.
Each filter consumes streams that inputs or earlier filters provide and
provides one new stream, its stage.
-/

namespace Montage

/-- A stream: that of an input, or the stage that a filter provides. -/
inductive Stream where
  | input (slot : Nat)
  | stage (number : Nat)
deriving DecidableEq, Repr

inductive Operation where
  | stack (axis : Axis) (count : Nat)
  | overlay (position : Position)
  | pass
deriving DecidableEq, Repr

/-- A filter: the streams it consumes, what it does, and the stage that it
provides. -/
structure Filter where
  sources : List Stream
  operation : Operation
  target : Nat
deriving DecidableEq, Repr

inductive Warning where
  | singleChild (axis : Axis)
deriving DecidableEq, Repr

/-- A compiled composition: the paths of its inputs by slot, its filters in
dependency order, the stream that shows the whole, and warnings. -/
structure Graph where
  inputs : List String
  filters : List Filter
  output : Stream
  warnings : List Warning
deriving DecidableEq, Repr

/-- A stream's name between the brackets of a pad label. -/
def labelled (name : String) : String := "[" ++ name ++ "]"

namespace Stream

/-- The name of a stream: a slot number, or `s` and a stage number. -/
def name : Stream → String
  | .input slot => toString slot
  | .stage number => "s" ++ toString number

def label (stream : Stream) : String := labelled stream.name

end Stream

def Operation.text : Operation → String
  | .stack axis count => axis.name ++ "=inputs=" ++ toString count
  | .overlay position => "overlay=" ++ position.x.text ++ ":" ++ position.y.text
  | .pass => "null"

/-- A filter as an expression: the labels it consumes, its name and arguments,
and the label it provides. -/
def Filter.text (filter : Filter) : String :=
  String.join (filter.sources.map Stream.label) ++ filter.operation.text ++
    (Stream.stage filter.target).label

def Warning.message : Warning → String
  | .singleChild axis =>
      axis.name ++ " with a single child; FFmpeg expects at least 2 inputs"

end Montage
