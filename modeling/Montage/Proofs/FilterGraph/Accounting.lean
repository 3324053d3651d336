import Mathlib.Algebra.GroupWithZero.Nat
import Montage.Proofs.FilterGraph.Linearity

/-!
# What each node adds to a graph

A media file adds an input, a linear stack a filter, and a layered stack an overlay
for each child but its base.  A linear stack with a single child adds a warning.  What
linear stacks add stands in the order of a walk that comes to every node after its
children.
-/

namespace Montage

/-! ## The shares of nodes -/

mutual

/-- The nodes of a tree, each after its children, and children from left to right. -/
def Node.postorder : Node → List Node
  | .resource path offset => [.resource path offset]
  | .stack kind children offset => postorderAll children ++ [.stack kind children offset]

def postorderAll : List Node → List Node
  | [] => []
  | node :: rest => node.postorder ++ postorderAll rest

end

/-- The axis of a linear stack, and how many children it has. -/
def Node.row? : Node → Option (Axis × Nat)
  | .stack (.linear axis) children _ => some (axis, children.length)
  | _ => none

def Node.isLinear (node : Node) : Bool := node.row?.isSome

/-- How many children are laid over the base of a layered stack. -/
def Node.layerCount : Node → Nat
  | .stack .layered children _ => children.length - 1
  | _ => 0

/-- The axis of a linear stack with a single child. -/
def Node.singleAxis? : Node → Option Axis
  | .stack (.linear axis) [_] _ => some axis
  | _ => none

/-- The axis along which an expression stacks, and how many streams. -/
def Expression.row? (expression : Expression) : Option (Axis × Nat) :=
  match expression.action with
  | .stack axis count => some (axis, count)
  | _ => none

/-- A media file, in any number of layered stacks that have a single child each. -/
inductive Node.Wrapped : Node → Prop where
  | resource {path : String} {offset : Position} : Wrapped (.resource path offset)
  | layered {child : Node} {offset : Position} :
      Wrapped child → Wrapped (.stack .layered [child] offset)

/-! ## Filters and warnings -/

/-- What nodes have added to a graph, while some overlays are there of a layered stack
that has not been left yet.  No filter merely passes its stream on. -/
structure Added (visited : List Node) (overlays : Nat) (filters : List Filter)
    (warnings : List Warning) : Prop where
  count : filters.length =
    visited.countP Node.isLinear + (visited.map Node.layerCount).sum + overlays
  rows : filters.filterMap (·.expression.row?) = visited.filterMap Node.row?
  warnings : warnings = (visited.filterMap Node.singleAxis?).map .singleChild
  active : ∀ filter ∈ filters, filter.operation ≠ .pass

namespace Added

variable {visited more : List Node} {overlays : Nat} {filters others : List Filter}
  {warnings further : List Warning}

theorem nothing : Added [] 0 [] [] := ⟨rfl, rfl, rfl, by simp⟩

theorem leaf (path : String) (offset : Position) : Added [.resource path offset] 0 [] [] :=
  ⟨rfl, rfl, rfl, by simp⟩

theorem append (front : Added visited overlays filters warnings)
    (back : Added more 0 others further) :
    Added (visited ++ more) overlays (filters ++ others) (warnings ++ further) := by
  refine { count := ?_, rows := ?_, warnings := ?_, active := ?_ }
  · rw [List.length_append, front.count, back.count, List.countP_append, List.map_append,
      List.sum_append]
    omega
  · rw [List.filterMap_append, List.filterMap_append, front.rows, back.rows]
  · rw [front.warnings, back.warnings, List.filterMap_append, List.map_append]
  · exact List.forall_mem_append.mpr ⟨front.active, back.active⟩

/-- A linear stack adds its own filter, and a warning if it has a single child. -/
theorem linear (added : Added visited 0 filters warnings) (axis : Axis) (children : List Node)
    (offset : Position) (sources : List Stream) (target : Nat) :
    Added (visited ++ [.stack (.linear axis) children offset]) 0
      (filters ++ [⟨sources, .stack axis children.length, target⟩])
      (warnings ++ if children.length = 1 then [.singleChild axis] else []) := by
  refine added.append { count := rfl, rows := rfl, warnings := ?_, active := by simp }
  match children with
  | [] => rfl
  | [_] => rfl
  | _ :: _ :: _ => rfl

theorem overlay (added : Added visited overlays filters warnings) (position : Position)
    (sources : List Stream) (target : Nat) :
    Added visited (overlays + 1) (filters ++ [⟨sources, .overlay position, target⟩]) warnings := by
  refine { count := ?_, rows := ?_, warnings := added.warnings, active := ?_ }
  · rw [List.length_append, added.count, List.length_singleton, Nat.add_assoc]
  · rw [List.filterMap_append, added.rows]
    exact List.append_nil _
  · exact List.forall_mem_append.mpr ⟨added.active, by simp⟩

/-- A layered stack is left once there is an overlay for each of its layers. -/
theorem layered {base : Node} {layers : List Node}
    (added : Added visited layers.length filters warnings) (offset : Position) :
    Added (visited ++ [.stack .layered (base :: layers) offset]) 0 filters warnings := by
  let stack := Node.stack .layered (base :: layers) offset
  have isNoRow : [stack].countP Node.isLinear = 0 := rfl
  have ownLayers : ([stack].map Node.layerCount).sum = layers.length := Nat.add_zero _
  refine { count := ?_, rows := ?_, warnings := ?_, active := added.active }
  · rw [added.count, List.countP_append, isNoRow, List.map_append, List.sum_append, ownLayers]
    omega
  · rw [added.rows, List.filterMap_append]
    exact (List.append_nil _).symm
  · rw [added.warnings, List.filterMap_append]
    exact congrArg (List.map _) (List.append_nil _).symm

end Added

mutual

theorem Compiles.added {slot stage : Nat} {node : Node} {graph : Graph}
    (compiles : Compiles slot stage node graph) :
    Added node.postorder 0 graph.filters graph.warnings := by
  cases compiles with
  | resource => exact .leaf _ _
  | @linear _ _ axis first rest offset children derivation =>
      have own := derivation.added.linear axis (first :: rest) offset children.outputs
        (stage + children.filters.length)
      rwa [← derivation.outputs_length] at own
  | @layered _ _ base layers offset below graph baseDerivation layersDerivation =>
      have laid := layersDerivation.added baseDerivation.added
      rw [Nat.zero_add] at laid
      exact laid.layered offset

theorem CompilesAll.added {slot stage : Nat} {nodes : List Node} {bundle : Bundle}
    (compiles : CompilesAll slot stage nodes bundle) :
    Added (postorderAll nodes) 0 bundle.filters bundle.warnings := by
  cases compiles with
  | nil => exact .nothing
  | cons first others => exact first.added.append others.added

/-- Layers add their own shares, and an overlay each. -/
theorem Overlays.added {slot stage : Nat} {layers : List Node} {below graph : Graph}
    {visited : List Node} {overlays : Nat} (laid : Overlays slot stage below layers graph)
    (belowAdded : Added visited overlays below.filters below.warnings) :
    Added (visited ++ postorderAll layers) (overlays + layers.length) graph.filters
      graph.warnings := by
  cases laid with
  | done =>
      rw [postorderAll, List.append_nil]
      exact belowAdded
  | @lay _ _ node rest _ layer _ layerDerivation restDerivation =>
      have joined := belowAdded.append layerDerivation.added
      have whole := restDerivation.added (joined.overlay node.offset _ _)
      rwa [List.append_assoc, Nat.add_right_comm, Nat.add_assoc] at whole

end

/-! ## The whole graph -/

/-- Where there are no filters, the only stream is that of the first input. -/
theorem Accounted.output_of_nil {slot stage inputCount : Nat} {output : Stream}
    (accounted : Accounted slot stage inputCount [] [output]) : output = .input slot := by
  have same := accounted.consumption
  rw [List.flatMap_nil, List.nil_append, List.length_nil, stagesFrom, List.range'_zero,
    List.map_nil, List.append_nil] at same
  have single : inputCount = 1 := by
    simpa [slotsFrom] using same.length_eq.symm
  rw [single] at same
  exact List.singleton_inj.mp (List.perm_singleton.mp same)

theorem Compiles.filters_eq_nil_iff {slot stage : Nat} {node : Node} {graph : Graph}
    (compiles : Compiles slot stage node graph) : graph.filters = [] ↔ node.Wrapped := by
  match node with
  | .resource path offset =>
      cases compiles
      exact ⟨fun _ => .resource, fun _ => rfl⟩
  | .stack (.linear axis) children offset =>
      cases compiles
      constructor
      · intro empty
        exact absurd empty (List.append_ne_nil_of_right_ne_nil _ (List.cons_ne_nil _ _))
      · intro wrapped
        cases wrapped
  | .stack .layered [] offset => cases compiles
  | .stack .layered [child] offset =>
      cases compiles with
      | layered base layers =>
          cases layers
          have inChild := Compiles.filters_eq_nil_iff base
          constructor
          · intro empty
            exact .layered (inChild.mp empty)
          · intro wrapped
            cases wrapped with
            | layered wrapped => exact inChild.mpr wrapped
  | .stack .layered (base :: layer :: rest) offset =>
      have count := compiles.added.count
      constructor
      · intro empty
        rw [empty] at count
        simp [Node.postorder, Node.layerCount] at count
      · intro wrapped
        cases wrapped

/-- A graph holds what the nodes of a tree add to it, and nothing else: its inputs are the
paths of the media files, its filters are one for each linear stack, in the order of the
walk, and one for each layer, and its warnings are one for each linear stack with a single
child, in the order of the walk.  Its output is that of its last filter.  It has none
exactly if the tree is a media file in layered stacks with nothing else in them. -/
structure Graph.AccountsFor (graph : Graph) (root : Node) : Prop where
  inputs : graph.inputs = root.paths
  filters : graph.filters.length =
    root.postorder.countP Node.isLinear + (root.postorder.map Node.layerCount).sum
  rows : (graph.texts.filterMap fun text => (Expression.read? text).bind Expression.row?) =
    root.postorder.filterMap Node.row?
  warnings : graph.warnings.map Warning.message =
    (root.postorder.filterMap Node.singleAxis?).map fun axis =>
      axis.name ++ " with a single child; FFmpeg expects at least 2 inputs"
  output : graph.output =
    if graph.filters = [] then .input 0 else .stage (graph.filters.length - 1)
  unfiltered : graph.filters = [] ↔ root.Wrapped

theorem Graph.filterMap_row?_texts (graph : Graph) :
    (graph.texts.filterMap fun text => (Expression.read? text).bind Expression.row?) =
      graph.filters.filterMap (·.expression.row?) := by
  rw [Graph.texts, List.filterMap_map]
  simp only [Function.comp_def, Expression.read?_text, Option.bind_some]

/-- Every tree without empty stacks has a graph that holds the shares of its nodes. -/
theorem compile_accounts_for_nodes (root : Node) (populated : root.Populated) :
    ∃ graph, root.compile = .ok graph ∧ graph.AccountsFor root := by
  obtain ⟨graph, compiles⟩ := populated.compiles 0 0
  refine ⟨graph, compile_eq_ok_iff.mpr compiles, ?_⟩
  have added := compiles.added
  have accounted := compiles.accounted
  refine
    { inputs := compiles.inputs_eq, filters := added.count, rows := ?_, warnings := ?_,
      output := ?_, unfiltered := compiles.filters_eq_nil_iff }
  · rw [graph.filterMap_row?_texts, added.rows]
  · rw [added.warnings, List.map_map]
    rfl
  · split
    · next empty =>
        rw [empty] at accounted
        exact accounted.output_of_nil
    · next nonempty =>
        rw [accounted.output_eq nonempty, Nat.zero_add]

/-- A row of one clip under a column of two, and a logo on both. -/
def unevenStacks : Node :=
  zstack [
    .node (vstack [.node (resource "top.mp4"), .node (resource "bottom.mp4")]),
    .node (hstack [.node (resource "top.mp4")]),
    .node (zstack [.node (resource "logo.png")])]

theorem unevenStacks_accounted_for :
    unevenStacks.Populated ∧
      ∃ graph, unevenStacks.compile = .ok graph ∧ graph.AccountsFor unevenStacks :=
  ⟨by decide, compile_accounts_for_nodes unevenStacks (by decide)⟩

end Montage
