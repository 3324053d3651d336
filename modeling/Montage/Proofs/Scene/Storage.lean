import Montage.Proofs.FilterGraph.EmptyStack
import Montage.Proofs.Scene.Grammar

/-!
# Trees as scene documents

Every tree can be written as a document that names its types, paths, children
and offsets.  Reading gives the tree back exactly if all its offsets are finite
and none of its paths is blank, and such trees are all that reading ever yields.
-/

namespace Montage

/-! ## Trees that can be stored -/

def Position.IsFinite (position : Position) : Prop :=
  position.x.isFinite = true ∧ position.y.isFinite = true

theorem Position.origin_isFinite : Position.origin.IsFinite :=
  ⟨Double.isFinite_zero false, Double.isFinite_zero false⟩

/-- All offsets in a tree are finite, and no path is blank. -/
structure Node.Storable (root : Node) : Prop where
  offsets : ∀ node : Node, node.Within root → node.offset.IsFinite
  paths : ∀ path offset, (Node.resource path offset).Within root → Text.trim path ≠ ""

theorem Node.storable_resource_iff {path : String} {offset : Position} :
    (Node.resource path offset).Storable ↔ offset.IsFinite ∧ Text.trim path ≠ "" := by
  constructor
  · intro storable
    exact ⟨storable.offsets _ .root, storable.paths _ _ .root⟩
  · rintro ⟨finite, notBlank⟩
    refine ⟨?_, ?_⟩
    · rintro node ⟨⟩
      exact finite
    · rintro _ _ ⟨⟩
      exact notBlank

theorem Node.storable_stack_iff {kind : StackKind} {children : List Node} {offset : Position} :
    (Node.stack kind children offset).Storable ↔
      offset.IsFinite ∧ ∀ child ∈ children, child.Storable := by
  constructor
  · intro storable
    refine ⟨storable.offsets _ .root, fun child member => ⟨?_, ?_⟩⟩
    · exact fun node within => storable.offsets node (.inChild member within)
    · exact fun path offset within => storable.paths path offset (.inChild member within)
  · rintro ⟨finite, children⟩
    refine ⟨?_, ?_⟩
    · rintro node (_ | ⟨member, within⟩)
      · exact finite
      · exact (children _ member).offsets node within
    · rintro path offset (_ | ⟨member, within⟩)
      exact (children _ member).paths path offset within

theorem Node.storable_place {node : Node} (storable : node.Storable) {offset : Position}
    (finite : offset.IsFinite) : (node.place offset).Storable := by
  cases node with
  | resource path _ =>
      obtain ⟨_, notBlank⟩ := storable_resource_iff.mp storable
      exact storable_resource_iff.mpr ⟨finite, notBlank⟩
  | stack kind children _ =>
      obtain ⟨_, childrenStorable⟩ := storable_stack_iff.mp storable
      exact storable_stack_iff.mpr ⟨finite, childrenStorable⟩

/-! ## The document of a tree -/

def Position.toValue (position : Position) : Value :=
  .record [("x", .number position.x), ("y", .number position.y)]

mutual

/-- The document that names everything in a tree. -/
def Node.toValue : Node → Value
  | .resource path offset =>
      .record [("type", .text "resource"), ("path", .text path), ("offset", offset.toValue)]
  | .stack kind children offset =>
      .record [("type", .text kind.name), ("children", .list (toValues children)),
        ("offset", offset.toValue)]

def toValues : List Node → List Value
  | [] => []
  | node :: rest => node.toValue :: toValues rest

end

/-- A tree as the field `root` of a document. -/
def Node.toWrappedValue (node : Node) : Value := .record [("root", node.toValue)]

namespace Scene

theorem writesOffset_toValue (offset : Position) : WritesOffset offset.toValue offset :=
  .given rfl rfl

theorem isOffset_toValue {offset : Position} (finite : offset.IsFinite) :
    IsOffset offset.toValue :=
  .given rfl finite.1 rfl finite.2

mutual

theorem writes_toValue (node : Node) : Writes node.toValue node := by
  cases node with
  | resource path offset => exact .resource rfl rfl (writesOffset_toValue offset)
  | stack kind children offset =>
      exact .stack rfl rfl (writesAll_toValues children) (writesOffset_toValue offset)

theorem writesAll_toValues (nodes : List Node) : WritesAll (toValues nodes) nodes := by
  cases nodes with
  | nil => exact .nil
  | cons node rest => exact .cons (writes_toValue node) (writesAll_toValues rest)

end

mutual

theorem isNode_toValue {node : Node} (storable : node.Storable) : IsNode node.toValue := by
  cases node with
  | resource path offset =>
      obtain ⟨finite, notBlank⟩ := Node.storable_resource_iff.mp storable
      exact .resource (isOffset_toValue finite) rfl rfl notBlank
  | stack kind children offset =>
      obtain ⟨finite, childrenStorable⟩ := Node.storable_stack_iff.mp storable
      exact .stack (isOffset_toValue finite) rfl rfl (areNodes_toValues childrenStorable)

theorem areNodes_toValues {nodes : List Node} (storable : ∀ node ∈ nodes, node.Storable) :
    ∀ value ∈ toValues nodes, IsNode value := by
  cases nodes with
  | nil =>
      intro value member
      cases member
  | cons node rest =>
      obtain ⟨first, others⟩ := List.forall_mem_cons.mp storable
      exact List.forall_mem_cons.mpr ⟨isNode_toValue first, areNodes_toValues others⟩

end

theorem WritesOffset.isFinite {value : Value} {offset : Position}
    (writes : WritesOffset value offset) (isOffset : IsOffset value) : offset.IsFinite := by
  cases writes with
  | missing => exact Position.origin_isFinite
  | given xField yField =>
      cases isOffset with
      | given xNumber xFinite yNumber yFinite =>
          rw [xField, Value.number.injEq] at xNumber
          rw [yField, Value.number.injEq] at yNumber
          subst xNumber yNumber
          exact ⟨xFinite, yFinite⟩

mutual

/-- What is read by the rules can be stored. -/
theorem Writes.storable {value : Value} {node : Node} (writes : Writes value node)
    (isNode : IsNode value) : node.Storable := by
  cases writes with
  | resource typeField pathField writesOffset =>
      cases isNode with
      | resource isOffset _ samePath notBlank =>
          rw [pathField, Value.text.injEq] at samePath
          subst samePath
          exact Node.storable_resource_iff.mpr ⟨writesOffset.isFinite isOffset, notBlank⟩
      | stack _ otherType _ _ =>
          rw [typeField, Value.text.injEq] at otherType
          exact absurd otherType.symm (name_ne_resource _)
  | stack typeField childrenField writesAll writesOffset =>
      cases isNode with
      | resource _ otherType _ _ =>
          rw [typeField, Value.text.injEq] at otherType
          exact absurd otherType (name_ne_resource _)
      | stack isOffset _ sameChildren areNodes =>
          rw [childrenField, Value.list.injEq] at sameChildren
          subst sameChildren
          exact Node.storable_stack_iff.mpr
            ⟨writesOffset.isFinite isOffset, writesAll.storable areNodes⟩

theorem WritesAll.storable {elements : List Value} {nodes : List Node}
    (writesAll : WritesAll elements nodes) (areNodes : ∀ element ∈ elements, IsNode element) :
    ∀ node ∈ nodes, node.Storable := by
  cases writesAll with
  | nil =>
      intro node member
      cases member
  | cons writes rest =>
      obtain ⟨isNode, others⟩ := List.forall_mem_cons.mp areNodes
      exact List.forall_mem_cons.mpr ⟨writes.storable isNode, rest.storable others⟩

end

theorem exists_readNode_of_read {document : Value} {tree : Node}
    (success : read document = .ok tree) : ∃ root, readNode root = .ok tree := by
  rw [read] at success
  split at success
  · next root _ => exact ⟨root, mapError_eq_ok_iff.mp success⟩
  · exact ⟨document, mapError_eq_ok_iff.mp success⟩

theorem storable_of_read {document : Value} {tree : Node} (success : read document = .ok tree) :
    tree.Storable := by
  obtain ⟨root, rootRead⟩ := exists_readNode_of_read success
  obtain ⟨isNode, writes⟩ := readNode_sound rootRead
  exact writes.storable isNode

theorem read_toValue {tree : Node} (storable : tree.Storable) : read tree.toValue = .ok tree := by
  have isNode := isNode_toValue storable
  have writes := writes_toValue tree
  cases tree with
  | resource path offset => exact read_eq_ok_iff.mpr ⟨.bare rfl isNode, .bare rfl writes⟩
  | stack kind children offset => exact read_eq_ok_iff.mpr ⟨.bare rfl isNode, .bare rfl writes⟩

theorem read_toWrappedValue {tree : Node} (storable : tree.Storable) :
    read tree.toWrappedValue = .ok tree :=
  read_eq_ok_iff.mpr
    ⟨.wrapped rfl (isNode_toValue storable), .wrapped rfl (writes_toValue tree)⟩

end Scene

end Montage
