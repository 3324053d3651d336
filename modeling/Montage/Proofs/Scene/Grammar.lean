import Montage.Proofs.Computation
import Montage.Scene.Document

/-!
# The grammar of scene documents

Which documents are scenes is said without reading them: by the rules for an
offset, a node and a document.  What tree a scene stands for is a relation
between values and trees.  Reading a document succeeds exactly on scenes, and
then yields the tree that the scene stands for.
-/

namespace Montage.Scene

/-! ## The rules -/

/-- An offset is left out, or it is a record with two finite numbers. -/
inductive IsOffset : Value → Prop where
  | missing : IsOffset .absent
  | given {fields : List (String × Value)} {x y : Double} :
      Value.field "x" fields = .number x → x.isFinite = true →
      Value.field "y" fields = .number y → y.isFinite = true →
      IsOffset (.record fields)

/-- A node is a record that has an offset by the rules, names its type, and has
a path that is not blank or a list of children that are nodes.  Its other fields
do not matter. -/
inductive IsNode : Value → Prop where
  | resource {fields : List (String × Value)} {path : String} :
      IsOffset (Value.field "offset" fields) →
      Value.field "type" fields = .text "resource" →
      Value.field "path" fields = .text path → Text.trim path ≠ "" →
      IsNode (.record fields)
  | stack {fields : List (String × Value)} {kind : StackKind} {elements : List Value} :
      IsOffset (Value.field "offset" fields) →
      Value.field "type" fields = .text kind.name →
      Value.field "children" fields = .list elements →
      (∀ element ∈ elements, IsNode element) →
      IsNode (.record fields)

/-- A document is a record whose field `root` is a node, whatever else it holds,
or a node without that field. -/
inductive IsDocument : Value → Prop where
  | wrapped {fields : List (String × Value)} {root : Value} :
      Value.field? "root" fields = some root → IsNode root →
      IsDocument (.record fields)
  | bare {fields : List (String × Value)} :
      Value.field? "root" fields = none → IsNode (.record fields) →
      IsDocument (.record fields)

/-! ## The tree of a scene -/

/-- A missing offset is the origin. -/
inductive WritesOffset : Value → Position → Prop where
  | missing : WritesOffset .absent .origin
  | given {fields : List (String × Value)} {x y : Double} :
      Value.field "x" fields = .number x → Value.field "y" fields = .number y →
      WritesOffset (.record fields) ⟨x, y⟩

mutual

/-- A value and the tree with the same types, paths, children and offsets. -/
inductive Writes : Value → Node → Prop where
  | resource {fields : List (String × Value)} {path : String} {offset : Position} :
      Value.field "type" fields = .text "resource" →
      Value.field "path" fields = .text path →
      WritesOffset (Value.field "offset" fields) offset →
      Writes (.record fields) (.resource path offset)
  | stack {fields : List (String × Value)} {kind : StackKind} {elements : List Value}
      {children : List Node} {offset : Position} :
      Value.field "type" fields = .text kind.name →
      Value.field "children" fields = .list elements →
      WritesAll elements children →
      WritesOffset (Value.field "offset" fields) offset →
      Writes (.record fields) (.stack kind children offset)

inductive WritesAll : List Value → List Node → Prop where
  | nil : WritesAll [] []
  | cons {element : Value} {rest : List Value} {node : Node} {others : List Node} :
      Writes element node → WritesAll rest others →
      WritesAll (element :: rest) (node :: others)

end

/-- A document writes what its field `root` writes, if it has one. -/
inductive WritesDocument : Value → Node → Prop where
  | wrapped {fields : List (String × Value)} {root : Value} {tree : Node} :
      Value.field? "root" fields = some root → Writes root tree →
      WritesDocument (.record fields) tree
  | bare {fields : List (String × Value)} {tree : Node} :
      Value.field? "root" fields = none → Writes (.record fields) tree →
      WritesDocument (.record fields) tree

/-! ## Reading the parts of a node -/

theorem finite?_eq_some_iff {value : Value} {number : Double} :
    finite? value = some number ↔ value = .number number ∧ number.isFinite = true := by
  cases value with
  | number found =>
      by_cases finite : found.isFinite = true
      · simp only [finite?, finite, if_true, Option.some.injEq, Value.number.injEq]
        constructor
        · rintro rfl
          exact ⟨rfl, finite⟩
        · exact And.left
      · simp only [finite?, finite, Value.number.injEq]
        constructor
        · intro impossible
          cases impossible
        · rintro ⟨rfl, isFinite⟩
          exact absurd isFinite finite
  | _ => simp [finite?]

theorem readOffset_eq_ok_iff {value : Value} {offset : Position} :
    readOffset value = .ok offset ↔ IsOffset value ∧ WritesOffset value offset := by
  constructor
  · intro success
    cases value with
    | absent =>
        cases success
        exact ⟨.missing, .missing⟩
    | record fields =>
        rw [readOffset] at success
        cases across : finite? (Value.field "x" fields) with
        | none =>
            rw [across] at success
            cases success
        | some x =>
            cases down : finite? (Value.field "y" fields) with
            | none =>
                rw [across, down] at success
                cases success
            | some y =>
                rw [across, down] at success
                cases success
                obtain ⟨xField, xFinite⟩ := finite?_eq_some_iff.mp across
                obtain ⟨yField, yFinite⟩ := finite?_eq_some_iff.mp down
                exact ⟨.given xField xFinite yField yFinite, .given xField yField⟩
    | _ => cases success
  · rintro ⟨rules, writes⟩
    cases writes with
    | missing => rfl
    | given xField yField =>
        cases rules with
        | given xNumber xFinite yNumber yFinite =>
            rw [xField] at xNumber
            rw [yField] at yNumber
            cases xNumber
            cases yNumber
            rw [readOffset, finite?_eq_some_iff.mpr ⟨xField, xFinite⟩,
              finite?_eq_some_iff.mpr ⟨yField, yFinite⟩]

theorem readPath_eq_ok_iff {value : Value} {path : String} :
    readPath value = .ok path ↔ value = .text path ∧ Text.trim path ≠ "" := by
  cases value with
  | text content =>
      by_cases blank : Text.trim content = ""
      · simp only [readPath, blank, if_true, Value.text.injEq]
        constructor
        · intro impossible
          cases impossible
        · rintro ⟨rfl, notBlank⟩
          exact absurd blank notBlank
      · simp only [readPath, blank, if_false, Except.ok.injEq, Value.text.injEq]
        constructor
        · rintro rfl
          exact ⟨rfl, blank⟩
        · exact And.left
  | _ => simp [readPath]

/-- The value that a type is written as. -/
def NodeType.name : NodeType → String
  | .resource => "resource"
  | .stack kind => kind.name

theorem ofName?_eq_some_iff {name : String} {kind : StackKind} :
    StackKind.ofName? name = some kind ↔ name = kind.name := by
  constructor
  · intro found
    have named := List.find?_some found
    exact (of_decide_eq_true named).symm
  · rintro rfl
    exact StackKind.ofName?_name kind

theorem name_ne_resource (kind : StackKind) : kind.name ≠ "resource" := by
  rcases kind with (_ | _) | _ <;> decide

theorem readType_name (nodeType : NodeType) :
    readType (.text nodeType.name) = .ok nodeType := by
  cases nodeType with
  | resource => rfl
  | stack kind =>
      simp [readType, NodeType.name, name_ne_resource, StackKind.ofName?_name]

theorem eq_text_name_of_readType {value : Value} {nodeType : NodeType}
    (success : readType value = .ok nodeType) : value = .text nodeType.name := by
  cases value with
  | text name =>
      rw [readType] at success
      split at success
      · next isResource =>
          cases success
          rw [isResource]
          rfl
      · split at success
        · next kind found =>
            cases success
            rw [ofName?_eq_some_iff.mp found]
            rfl
        · cases success
  | _ =>
      simp only [readType] at success
      split at success <;> cases success

theorem readType_eq_ok_iff {value : Value} {nodeType : NodeType} :
    readType value = .ok nodeType ↔ value = .text nodeType.name := by
  constructor
  · exact eq_text_name_of_readType
  · rintro rfl
    exact readType_name nodeType

/-! ## Reading nodes -/

theorem readChildren_eq (fields : List (String × Value)) :
    readChildren fields = readList (Value.field "children" fields) := by
  induction fields with
  | nil => rfl
  | cons entry rest induction =>
      obtain ⟨name, value⟩ := entry
      rw [readChildren, Value.field, Value.field?]
      split
      · rfl
      · exact induction

mutual

theorem readNode_sound {value : Value} {node : Node} (success : readNode value = .ok node) :
    IsNode value ∧ Writes value node := by
  match value with
  | .record fields =>
      rw [readNode] at success
      obtain ⟨offset, offsetRead, remaining⟩ := exists_of_bind_eq_ok success
      obtain ⟨nodeType, typeRead, result⟩ := exists_of_bind_eq_ok remaining
      obtain ⟨isOffset, writesOffset⟩ := readOffset_eq_ok_iff.mp offsetRead
      have typeField := readType_eq_ok_iff.mp typeRead
      cases nodeType with
      | resource =>
          obtain ⟨path, pathRead, made⟩ := exists_of_bind_eq_ok result
          obtain ⟨pathField, notBlank⟩ := readPath_eq_ok_iff.mp pathRead
          cases made
          exact ⟨.resource isOffset typeField pathField notBlank,
            .resource typeField pathField writesOffset⟩
      | stack kind =>
          obtain ⟨children, childrenRead, made⟩ := exists_of_bind_eq_ok result
          obtain ⟨elements, childrenField, areNodes, writesAll⟩ :=
            readChildren_sound childrenRead
          cases made
          exact ⟨.stack isOffset typeField childrenField areNodes,
            .stack typeField childrenField writesAll writesOffset⟩
  | .absent | .null | .boolean _ | .number _ | .text _ | .list _ => cases success

theorem readChildren_sound {fields : List (String × Value)} {children : List Node}
    (success : readChildren fields = .ok children) :
    ∃ elements, Value.field "children" fields = .list elements ∧
      (∀ element ∈ elements, IsNode element) ∧ WritesAll elements children := by
  match fields with
  | [] => cases success
  | (name, value) :: rest =>
      rw [readChildren] at success
      rw [Value.field, Value.field?]
      split at success
      · next named =>
          rw [if_pos named]
          exact readList_sound success
      · next named =>
          rw [if_neg named]
          exact readChildren_sound success

theorem readList_sound {value : Value} {children : List Node}
    (success : readList value = .ok children) :
    ∃ elements, value = .list elements ∧
      (∀ element ∈ elements, IsNode element) ∧ WritesAll elements children := by
  match value with
  | .list elements =>
      rw [readList] at success
      obtain ⟨areNodes, writesAll⟩ := readElements_sound success
      exact ⟨elements, rfl, areNodes, writesAll⟩
  | .absent | .null | .boolean _ | .number _ | .text _ | .record _ => cases success

theorem readElements_sound {index : Nat} {elements : List Value} {children : List Node}
    (success : readElements index elements = .ok children) :
    (∀ element ∈ elements, IsNode element) ∧ WritesAll elements children := by
  match elements with
  | [] =>
      cases success
      exact ⟨fun _ member => absurd member List.not_mem_nil, .nil⟩
  | element :: rest =>
      rw [readElements] at success
      cases firstRead : readNode element with
      | error fault =>
          rw [firstRead] at success
          cases success
      | ok first =>
          rw [firstRead] at success
          obtain ⟨others, othersRead, made⟩ := exists_of_bind_eq_ok success
          cases made
          obtain ⟨isNode, writes⟩ := readNode_sound firstRead
          obtain ⟨areNodes, writesAll⟩ := readElements_sound othersRead
          exact ⟨List.forall_mem_cons.mpr ⟨isNode, areNodes⟩, .cons writes writesAll⟩

end

mutual

/-- What a node by the rules writes is what is read. -/
theorem Writes.readNode_eq {value : Value} {node : Node} (writes : Writes value node)
    (isNode : IsNode value) : readNode value = .ok node := by
  cases writes with
  | resource typeField pathField writesOffset =>
      have typeRead : readType _ = .ok .resource := readType_eq_ok_iff.mpr typeField
      cases isNode with
      | resource isOffset _ samePath notBlank =>
          rw [pathField, Value.text.injEq] at samePath
          subst samePath
          have offsetRead := readOffset_eq_ok_iff.mpr ⟨isOffset, writesOffset⟩
          have pathRead := readPath_eq_ok_iff.mpr ⟨pathField, notBlank⟩
          simp only [readNode, offsetRead, typeRead, pathRead, bind, Except.bind, pure,
            Except.pure]
      | stack _ otherType _ _ =>
          rw [typeField, Value.text.injEq] at otherType
          exact absurd otherType.symm (name_ne_resource _)
  | @stack _ kind _ _ _ typeField childrenField writesAll writesOffset =>
      have typeRead : readType _ = .ok (.stack kind) := readType_eq_ok_iff.mpr typeField
      cases isNode with
      | resource _ otherType _ _ =>
          rw [typeField, Value.text.injEq] at otherType
          exact absurd otherType (name_ne_resource _)
      | stack isOffset _ sameChildren areNodes =>
          rw [childrenField, Value.list.injEq] at sameChildren
          subst sameChildren
          have offsetRead := readOffset_eq_ok_iff.mpr ⟨isOffset, writesOffset⟩
          have elementsRead := writesAll.readElements_eq areNodes 0
          simp only [readNode, offsetRead, typeRead, readChildren_eq, childrenField,
            readList, elementsRead, bind, Except.bind, pure, Except.pure]

theorem WritesAll.readElements_eq {elements : List Value} {children : List Node}
    (writesAll : WritesAll elements children)
    (areNodes : ∀ element ∈ elements, IsNode element) (index : Nat) :
    readElements index elements = .ok children := by
  cases writesAll with
  | nil => rfl
  | cons writes rest =>
      obtain ⟨isNode, others⟩ := List.forall_mem_cons.mp areNodes
      have firstRead := writes.readNode_eq isNode
      have othersRead := rest.readElements_eq others (index + 1)
      simp only [readElements, firstRead, othersRead, bind, Except.bind, pure, Except.pure]

end

/-! ## Every node writes a tree -/

theorem IsOffset.exists_writes {value : Value} (isOffset : IsOffset value) :
    ∃ offset, WritesOffset value offset := by
  cases isOffset with
  | missing => exact ⟨_, .missing⟩
  | given xField _ yField _ => exact ⟨_, .given xField yField⟩

theorem exists_writesAll {elements : List Value}
    (written : ∀ element ∈ elements, ∃ node, Writes element node) :
    ∃ children, WritesAll elements children := by
  induction elements with
  | nil => exact ⟨_, .nil⟩
  | cons element rest induction =>
      obtain ⟨⟨node, writes⟩, others⟩ := List.forall_mem_cons.mp written
      obtain ⟨children, writesAll⟩ := induction others
      exact ⟨_, .cons writes writesAll⟩

theorem IsNode.exists_writes {value : Value} (isNode : IsNode value) :
    ∃ node, Writes value node := by
  induction isNode with
  | resource isOffset typeField pathField _ =>
      obtain ⟨offset, writesOffset⟩ := isOffset.exists_writes
      exact ⟨_, .resource typeField pathField writesOffset⟩
  | stack isOffset typeField childrenField _ written =>
      obtain ⟨offset, writesOffset⟩ := isOffset.exists_writes
      obtain ⟨children, writesAll⟩ := exists_writesAll written
      exact ⟨_, .stack typeField childrenField writesAll writesOffset⟩

/-! ## Reading documents -/

theorem read_eq_ok_iff {document : Value} {tree : Node} :
    read document = .ok tree ↔ IsDocument document ∧ WritesDocument document tree := by
  constructor
  · intro success
    rw [read] at success
    cases root : wrappedRoot? document with
    | some value =>
        rw [root] at success
        obtain ⟨isNode, writes⟩ := readNode_sound (mapError_eq_ok_iff.mp success)
        cases document with
        | record fields => exact ⟨.wrapped root isNode, .wrapped root writes⟩
        | _ => cases root
    | none =>
        rw [root] at success
        obtain ⟨isNode, writes⟩ := readNode_sound (mapError_eq_ok_iff.mp success)
        cases document with
        | record fields => exact ⟨.bare root isNode, .bare root writes⟩
        | _ => cases isNode
  · rintro ⟨isDocument, writes⟩
    cases writes with
    | wrapped root writes =>
        cases isDocument with
        | wrapped sameRoot isNode =>
            rw [root, Option.some.injEq] at sameRoot
            subst sameRoot
            simp only [read, wrappedRoot?, root]
            exact mapError_eq_ok_iff.mpr (writes.readNode_eq isNode)
        | bare noRoot _ =>
            rw [root] at noRoot
            cases noRoot
    | bare noRoot writes =>
        cases isDocument with
        | wrapped root _ =>
            rw [noRoot] at root
            cases root
        | bare _ isNode =>
            simp only [read, wrappedRoot?, noRoot]
            exact mapError_eq_ok_iff.mpr (writes.readNode_eq isNode)

theorem IsDocument.exists_writes {document : Value} (isDocument : IsDocument document) :
    ∃ tree, WritesDocument document tree := by
  cases isDocument with
  | wrapped root isNode =>
      obtain ⟨tree, writes⟩ := isNode.exists_writes
      exact ⟨tree, .wrapped root writes⟩
  | bare noRoot isNode =>
      obtain ⟨tree, writes⟩ := isNode.exists_writes
      exact ⟨tree, .bare noRoot writes⟩

/-- Reading succeeds exactly on the documents of the grammar, and yields the tree
that the document writes. -/
theorem read_accepts_exactly_documents (document : Value) :
    ((∃ tree, read document = .ok tree) ↔ IsDocument document) ∧
    ∀ tree, read document = .ok tree ↔
      IsDocument document ∧ WritesDocument document tree := by
  refine ⟨⟨?_, ?_⟩, fun tree => read_eq_ok_iff⟩
  · rintro ⟨tree, success⟩
    exact (read_eq_ok_iff.mp success).1
  · intro isDocument
    obtain ⟨tree, writes⟩ := isDocument.exists_writes
    exact ⟨tree, read_eq_ok_iff.mpr ⟨isDocument, writes⟩⟩

end Montage.Scene
