import Montage.Proofs.FilterGraph.Influence
import Montage.Proofs.Number.Reading
import Montage.Proofs.Scene.Storage

/-!
# Trees without signed zeros

A text keeps everything of a tree but the signs of zeros.  Nothing that is written of
the tree's graph shows them.
-/

namespace Montage

/-! ## Positions and trees -/

def Position.settled (position : Position) : Position :=
  ⟨position.x.settled, position.y.settled⟩

mutual

/-- A tree in which zeros have lost their signs. -/
def Node.settled : Node → Node
  | .resource path offset => .resource path offset.settled
  | .stack kind children offset => .stack kind (settledNodes children) offset.settled

def settledNodes : List Node → List Node
  | [] => []
  | node :: rest => node.settled :: settledNodes rest

end

theorem Position.IsFinite.settled {position : Position} (finite : position.IsFinite) :
    position.settled.IsFinite :=
  ⟨Double.isFinite_settled finite.1, Double.isFinite_settled finite.2⟩

theorem Position.IsFinite.texts_settled {position : Position} (finite : position.IsFinite) :
    position.settled.texts = position.texts := by
  rw [Position.texts, Position.settled, Double.text_settled finite.1,
    Double.text_settled finite.2, Position.texts]

theorem Node.offset_settled (node : Node) : node.settled.offset = node.offset.settled := by
  cases node <;> rfl

mutual

theorem Node.Storable.settled {node : Node} (storable : node.Storable) :
    node.settled.Storable := by
  cases node with
  | resource path offset =>
      obtain ⟨finite, notBlank⟩ := Node.storable_resource_iff.mp storable
      exact Node.storable_resource_iff.mpr ⟨finite.settled, notBlank⟩
  | stack kind children offset =>
      obtain ⟨finite, childrenStorable⟩ := Node.storable_stack_iff.mp storable
      exact Node.storable_stack_iff.mpr ⟨finite.settled, storable_settledNodes childrenStorable⟩

theorem storable_settledNodes {nodes : List Node} (storable : ∀ node ∈ nodes, node.Storable) :
    ∀ node ∈ settledNodes nodes, node.Storable := by
  cases nodes with
  | nil =>
      intro node member
      cases member
  | cons node rest =>
      obtain ⟨first, others⟩ := List.forall_mem_cons.mp storable
      exact List.forall_mem_cons.mpr ⟨first.settled, storable_settledNodes others⟩

end

/-! ## What is compiled -/

mutual

theorem Node.shape_settled (node : Node) : node.settled.shape = node.shape := by
  cases node with
  | resource path offset => rfl
  | stack kind children offset =>
      rw [Node.settled, Node.shape, Node.shape, shapes_settledNodes children]

theorem shapes_settledNodes (nodes : List Node) : shapes (settledNodes nodes) = shapes nodes := by
  cases nodes with
  | nil => rfl
  | cons node rest =>
      rw [settledNodes, shapes, shapes, node.shape_settled, shapes_settledNodes rest]

end

mutual

theorem Node.Storable.forget_settled {node : Node} (storable : node.Storable)
    (place : Option (String × String)) : node.settled.forget place = node.forget place := by
  match node with
  | .resource path offset => rfl
  | .stack (.linear axis) children offset =>
      obtain ⟨_, childrenStorable⟩ := Node.storable_stack_iff.mp storable
      rw [Node.settled, Node.forget, Node.forget, forgetAll_settledNodes childrenStorable]
  | .stack .layered [] offset => rfl
  | .stack .layered (base :: layers) offset =>
      obtain ⟨_, childrenStorable⟩ := Node.storable_stack_iff.mp storable
      obtain ⟨baseStorable, layersStorable⟩ := List.forall_mem_cons.mp childrenStorable
      rw [Node.settled, settledNodes, Node.forget, Node.forget, baseStorable.forget_settled,
        forgetLayers_settledNodes layersStorable]

theorem forgetAll_settledNodes {nodes : List Node} (storable : ∀ node ∈ nodes, node.Storable) :
    forgetAll (settledNodes nodes) = forgetAll nodes := by
  match nodes with
  | [] => rfl
  | node :: rest =>
      obtain ⟨first, others⟩ := List.forall_mem_cons.mp storable
      rw [settledNodes, forgetAll, forgetAll, first.forget_settled,
        forgetAll_settledNodes others]

theorem forgetLayers_settledNodes {layers : List Node}
    (storable : ∀ layer ∈ layers, layer.Storable) :
    forgetLayers (settledNodes layers) = forgetLayers layers := by
  match layers with
  | [] => rfl
  | layer :: rest =>
      obtain ⟨first, others⟩ := List.forall_mem_cons.mp storable
      have finite := first.offsets layer .root
      rw [settledNodes, forgetLayers, forgetLayers, layer.offset_settled, finite.texts_settled,
        first.forget_settled, forgetLayers_settledNodes others]

end

/-- Two trees compile to graphs that are written alike, or to the same fault. -/
def Node.CompilesLike (first second : Node) : Prop :=
  (∃ kind, first.compile = .error (.emptyStack kind) ∧
    second.compile = .error (.emptyStack kind)) ∨
  ∃ firstGraph secondGraph, first.compile = .ok firstGraph ∧ second.compile = .ok secondGraph ∧
    firstGraph.SameTexts secondGraph

theorem Node.compilesLike_of_forget {first second : Node}
    (sameShape : first.shape = second.shape)
    (same : first.forget none = second.forget none) : first.CompilesLike second := by
  have sameEmpty := firstEmpty?_of_shape sameShape
  cases empty : first.firstEmpty? with
  | some kind =>
      have secondEmpty := sameEmpty.symm.trans empty
      exact .inl ⟨kind, compileFrom_eq_error empty 0 0, compileFrom_eq_error secondEmpty 0 0⟩
  | none =>
      have secondEmpty := sameEmpty.symm.trans empty
      obtain ⟨firstGraph, firstCompiles⟩ := (populated_of_firstEmpty? empty).compiles 0 0
      obtain ⟨secondGraph, secondCompiles⟩ := (populated_of_firstEmpty? secondEmpty).compiles 0 0
      exact .inr ⟨firstGraph, secondGraph, compile_eq_ok_iff.mpr firstCompiles,
        compile_eq_ok_iff.mpr secondCompiles,
        firstCompiles.sameTexts_of_forget secondCompiles same⟩

theorem Node.Storable.compilesLike_settled {node : Node} (storable : node.Storable) :
    node.settled.CompilesLike node :=
  compilesLike_of_forget node.shape_settled (storable.forget_settled none)

end Montage
