import Montage.Composition.Error
import Montage.FilterGraph.Basic

/-!
# Compiling compositions

The compiler walks a tree depth first and from left to right.  A media file
takes the next input slot.  A linear stack is one filter after those of its
children.  A layered stack is one overlay for each child after its base, laid
over the composite so far as soon as that child is complete, so filters stand
in dependency order.

Every graph is made for a given first slot and first stage, so the graphs of
neighbouring trees join by appending their lists.
-/

namespace Montage

structure Bundle where
  inputs : List String
  filters : List Filter
  outputs : List Stream
  warnings : List Warning
deriving DecidableEq, Repr

/-- A graph in front of the graphs of the trees to its right. -/
def Bundle.cons (first : Graph) (others : Bundle) : Bundle :=
  { inputs := first.inputs ++ others.inputs
    filters := first.filters ++ others.filters
    outputs := first.output :: others.outputs
    warnings := first.warnings ++ others.warnings }

/-- The graph of a linear stack, given those of its children.  Its filter
provides the first stage after theirs. -/
def Bundle.stacked (firstStage : Nat) (axis : Axis) (children : Bundle) : Graph :=
  let stage := firstStage + children.filters.length
  let filter : Filter :=
    { sources := children.outputs
      operation := .stack axis children.outputs.length
      target := stage }
  { inputs := children.inputs
    filters := children.filters ++ [filter]
    output := .stage stage
    warnings := children.warnings ++
      if children.outputs.length = 1 then [.singleChild axis] else [] }

/-- The graph of a composite with one more layer on it. -/
def Graph.overlaid (firstStage : Nat) (below : Graph) (position : Position)
    (layer : Graph) : Graph :=
  let stage := firstStage + below.filters.length + layer.filters.length
  let filter : Filter :=
    { sources := [below.output, layer.output]
      operation := .overlay position
      target := stage }
  { inputs := below.inputs ++ layer.inputs
    filters := below.filters ++ layer.filters ++ [filter]
    output := .stage stage
    warnings := below.warnings ++ layer.warnings }

mutual

/-- The graph of a tree whose inputs and stages are numbered from the given
ones on. -/
def Node.compileFrom (firstSlot firstStage : Nat) :
    Node → Except CompositionError Graph
  | .resource path _ => .ok ⟨[path], [], .input firstSlot, []⟩
  | .stack (.linear axis) [] _ => .error (.emptyStack (.linear axis))
  | .stack (.linear axis) (first :: rest) _ => do
      let children ← compileAll firstSlot firstStage (first :: rest)
      return children.stacked firstStage axis
  | .stack .layered [] _ => .error (.emptyStack .layered)
  | .stack .layered (base :: layers) _ => do
      let below ← base.compileFrom firstSlot firstStage
      overlayAll firstSlot firstStage below layers

def compileAll (firstSlot firstStage : Nat) :
    List Node → Except CompositionError Bundle
  | [] => .ok ⟨[], [], [], []⟩
  | node :: rest => do
      let first ← node.compileFrom firstSlot firstStage
      let others ← compileAll (firstSlot + first.inputs.length)
        (firstStage + first.filters.length) rest
      return .cons first others

/-- The graph of a composite with layers laid over it in turn. -/
def overlayAll (firstSlot firstStage : Nat) (below : Graph) :
    List Node → Except CompositionError Graph
  | [] => .ok below
  | node :: rest => do
      let layer ← node.compileFrom (firstSlot + below.inputs.length)
        (firstStage + below.filters.length)
      overlayAll firstSlot firstStage
        (below.overlaid firstStage node.offset layer) rest

end

def Node.compile (root : Node) : Except CompositionError Graph :=
  root.compileFrom 0 0

end Montage
