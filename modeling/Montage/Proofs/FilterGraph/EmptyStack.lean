import Montage.Proofs.FilterGraph.Derivation

/-!
# Empty stacks

A composition has no graph exactly if some stack in it has no children.  The
fault then names the first such stack of a walk through the tree that visits
each node before its children, and children from left to right.
-/

namespace Montage

/-- A node that stands somewhere in a tree. -/
inductive Node.Within (node : Node) : Node → Prop where
  | root : Within node node
  | inChild {kind : StackKind} {children : List Node} {offset : Position} {child : Node} :
      child ∈ children → Within node child →
      Within node (.stack kind children offset)

mutual

/-- The nodes of a tree, depth first and from left to right. -/
def Node.walk : Node → List Node
  | .resource path offset => [.resource path offset]
  | .stack kind children offset => .stack kind children offset :: walkAll children

def walkAll : List Node → List Node
  | [] => []
  | node :: rest => node.walk ++ walkAll rest

end

/-- The kind of a stack without children. -/
def Node.emptyKind? : Node → Option StackKind
  | .stack kind [] _ => some kind
  | _ => none

/-- The kind of the first stack without children that a walk meets. -/
def Node.firstEmpty? (root : Node) : Option StackKind :=
  root.walk.findSome? Node.emptyKind?

def firstEmptyOf? (nodes : List Node) : Option StackKind :=
  (walkAll nodes).findSome? Node.emptyKind?

theorem firstEmpty?_nonempty (kind : StackKind) (first : Node) (rest : List Node)
    (offset : Position) :
    (Node.stack kind (first :: rest) offset).firstEmpty? =
      firstEmptyOf? (first :: rest) := by
  rw [Node.firstEmpty?, Node.walk, List.findSome?_cons]
  rfl

theorem firstEmptyOf?_cons (node : Node) (rest : List Node) :
    firstEmptyOf? (node :: rest) = node.firstEmpty?.or (firstEmptyOf? rest) := by
  rw [firstEmptyOf?, walkAll, List.findSome?_append]
  rfl

/-! ## The walk visits the whole tree -/

theorem mem_walkAll_iff {node : Node} {nodes : List Node} :
    node ∈ walkAll nodes ↔ ∃ child ∈ nodes, node ∈ child.walk := by
  induction nodes with
  | nil => simp [walkAll]
  | cons child rest induction => simp [walkAll, induction]

theorem Node.Within.mem_walk {node root : Node} (within : node.Within root) :
    node ∈ root.walk := by
  induction within with
  | root => cases node <;> simp [Node.walk]
  | inChild member _ induction =>
      rw [Node.walk]
      exact List.mem_cons_of_mem _ (mem_walkAll_iff.mpr ⟨_, member, induction⟩)

mutual

theorem Node.within_of_mem_walk {node root : Node} (member : node ∈ root.walk) :
    node.Within root := by
  match root with
  | .resource path offset =>
      rw [Node.walk, List.mem_singleton] at member
      subst member
      exact .root
  | .stack kind children offset =>
      rw [Node.walk] at member
      rcases List.mem_cons.mp member with rfl | later
      · exact .root
      · obtain ⟨child, childMember, within⟩ := exists_within_of_mem_walkAll later
        exact .inChild childMember within

theorem exists_within_of_mem_walkAll {node : Node} {nodes : List Node}
    (member : node ∈ walkAll nodes) : ∃ child ∈ nodes, node.Within child := by
  match nodes with
  | [] => cases member
  | first :: rest =>
      rw [walkAll] at member
      rcases List.mem_append.mp member with inFirst | inRest
      · exact ⟨first, List.mem_cons_self, Node.within_of_mem_walk inFirst⟩
      · obtain ⟨child, childMember, within⟩ := exists_within_of_mem_walkAll inRest
        exact ⟨child, List.mem_cons_of_mem _ childMember, within⟩

end

theorem Node.mem_walk_iff {node root : Node} : node ∈ root.walk ↔ node.Within root :=
  ⟨Node.within_of_mem_walk, Node.Within.mem_walk⟩

theorem Node.emptyKind?_eq_some_iff {node : Node} {kind : StackKind} :
    node.emptyKind? = some kind ↔ ∃ offset, node = .stack kind [] offset := by
  rcases node with ⟨path, offset⟩ | ⟨other, _ | ⟨first, rest⟩, offset⟩ <;>
    simp [Node.emptyKind?]

def Node.isStack : Node → Bool
  | .resource _ _ => false
  | .stack _ _ _ => true

theorem walkAll_append (front back : List Node) :
    walkAll (front ++ back) = walkAll front ++ walkAll back := by
  induction front with
  | nil => rfl
  | cons node front induction =>
      rw [List.cons_append, walkAll, walkAll, induction, List.append_assoc]

theorem findSome?_emptyKind?_filter (nodes : List Node) :
    (nodes.filter Node.isStack).findSome? Node.emptyKind? =
      nodes.findSome? Node.emptyKind? := by
  induction nodes with
  | nil => rfl
  | cons node nodes induction =>
      cases node with
      | resource path offset => exact induction
      | stack kind children offset =>
          rw [List.filter_cons_of_pos rfl, List.findSome?_cons, List.findSome?_cons, induction]

/-! ## The compiler stops at the first empty stack -/

mutual

theorem Node.populated_of_firstEmpty? {node : Node} (nothing : node.firstEmpty? = none) :
    node.Populated := by
  match node with
  | .resource path offset => trivial
  | .stack kind [] offset => cases nothing
  | .stack kind (first :: rest) offset =>
      rw [firstEmpty?_nonempty] at nothing
      exact ⟨List.cons_ne_nil _ _, allPopulated_of_firstEmptyOf? nothing⟩

theorem allPopulated_of_firstEmptyOf? {nodes : List Node}
    (nothing : firstEmptyOf? nodes = none) : AllPopulated nodes := by
  match nodes with
  | [] => trivial
  | node :: rest =>
      rw [firstEmptyOf?_cons, Option.or_eq_none_iff] at nothing
      exact ⟨Node.populated_of_firstEmpty? nothing.1,
        allPopulated_of_firstEmptyOf? nothing.2⟩

end

/-- A tree before the first empty stack compiles, and its own first one is the
first of all otherwise. -/
theorem firstEmptyOf?_cons_cases {node : Node} {rest : List Node} {kind : StackKind}
    (found : firstEmptyOf? (node :: rest) = some kind) (slot stage : Nat) :
    node.firstEmpty? = some kind ∨
      (∃ graph, node.compileFrom slot stage = .ok graph) ∧
        firstEmptyOf? rest = some kind := by
  rw [firstEmptyOf?_cons, Option.or_eq_some_iff] at found
  rcases found with inNode | ⟨nothing, inRest⟩
  · exact .inl inNode
  · obtain ⟨graph, compiles⟩ :=
      (Node.populated_of_firstEmpty? nothing).compiles slot stage
    exact .inr ⟨⟨graph, compiles.compileFrom_eq⟩, inRest⟩

mutual

theorem Node.compileFrom_eq_error {node : Node} {kind : StackKind}
    (found : node.firstEmpty? = some kind) (slot stage : Nat) :
    node.compileFrom slot stage = .error (.emptyStack kind) := by
  match node with
  | .resource path offset => cases found
  | .stack (.linear axis) [] offset =>
      cases found
      rw [Node.compileFrom]
  | .stack (.linear axis) (first :: rest) offset =>
      rw [firstEmpty?_nonempty] at found
      rw [Node.compileFrom, compileAll_eq_error found]
      rfl
  | .stack .layered [] offset =>
      cases found
      rw [Node.compileFrom]
  | .stack .layered (base :: layers) offset =>
      rw [firstEmpty?_nonempty] at found
      rw [Node.compileFrom]
      rcases firstEmptyOf?_cons_cases found slot stage with inBase | ⟨⟨below, ok⟩, inLayers⟩
      · rw [Node.compileFrom_eq_error inBase]
        rfl
      · rw [ok]
        exact overlayAll_eq_error inLayers slot stage below

theorem compileAll_eq_error {nodes : List Node} {kind : StackKind}
    (found : firstEmptyOf? nodes = some kind) (slot stage : Nat) :
    compileAll slot stage nodes = .error (.emptyStack kind) := by
  match nodes with
  | [] => cases found
  | node :: rest =>
      rw [compileAll]
      rcases firstEmptyOf?_cons_cases found slot stage with inNode | ⟨⟨first, ok⟩, inRest⟩
      · rw [Node.compileFrom_eq_error inNode]
        rfl
      · rw [ok]
        change compileAll _ _ rest >>= _ = _
        rw [compileAll_eq_error inRest]
        rfl

theorem overlayAll_eq_error {layers : List Node} {kind : StackKind}
    (found : firstEmptyOf? layers = some kind) (slot stage : Nat) (below : Graph) :
    overlayAll slot stage below layers = .error (.emptyStack kind) := by
  match layers with
  | [] => cases found
  | node :: rest =>
      rw [overlayAll]
      rcases firstEmptyOf?_cons_cases found (slot + below.inputs.length)
          (stage + below.filters.length) with inNode | ⟨⟨layer, ok⟩, inRest⟩
      · rw [Node.compileFrom_eq_error inNode]
        rfl
      · rw [ok]
        exact overlayAll_eq_error inRest slot stage _

end

theorem compile_eq_error_iff {root : Node} {error : CompositionError} :
    root.compile = .error error ↔
      ∃ kind, root.firstEmpty? = some kind ∧ error = .emptyStack kind := by
  constructor
  · intro failure
    cases first : root.firstEmpty? with
    | none =>
        obtain ⟨graph, compiles⟩ := (Node.populated_of_firstEmpty? first).compiles 0 0
        rw [Node.compile, compiles.compileFrom_eq] at failure
        cases failure
    | some kind =>
        rw [Node.compile, Node.compileFrom_eq_error first] at failure
        cases failure
        exact ⟨kind, rfl, rfl⟩
  · rintro ⟨kind, first, rfl⟩
    exact Node.compileFrom_eq_error first 0 0

/-- The first empty stack of a walk is of the given kind. -/
def Node.FirstEmpty (root : Node) (kind : StackKind) : Prop :=
  ∃ before offset after,
    root.walk = before ++ .stack kind [] offset :: after ∧
      ∀ node ∈ before, node.emptyKind? = none

theorem firstEmpty?_eq_some_iff {root : Node} {kind : StackKind} :
    root.firstEmpty? = some kind ↔ root.FirstEmpty kind := by
  rw [Node.firstEmpty?, List.findSome?_eq_some_iff]
  constructor
  · rintro ⟨before, node, after, walk, empty, earlier⟩
    obtain ⟨offset, rfl⟩ := Node.emptyKind?_eq_some_iff.mp empty
    exact ⟨before, offset, after, walk, earlier⟩
  · rintro ⟨before, offset, after, walk, earlier⟩
    exact ⟨before, _, after, walk, rfl, earlier⟩

theorem exists_firstEmpty?_iff {root : Node} :
    (∃ kind, root.firstEmpty? = some kind) ↔
      ∃ kind offset, (Node.stack kind [] offset).Within root := by
  rw [← Option.isSome_iff_exists, Node.firstEmpty?, List.findSome?_isSome_iff]
  simp only [Node.mem_walk_iff, Option.isSome_iff_exists, Node.emptyKind?_eq_some_iff]
  constructor
  · rintro ⟨_, within, kind, offset, rfl⟩
    exact ⟨kind, offset, within⟩
  · rintro ⟨kind, offset, within⟩
    exact ⟨_, within, kind, offset, rfl⟩

/-- A composition has no graph exactly if a stack somewhere in it is empty, and
the fault is then that of the first one. -/
theorem compile_fails_at_first_empty_stack (root : Node) :
    ((∃ error, root.compile = .error error) ↔
      ∃ kind offset, (Node.stack kind [] offset).Within root) ∧
    ∀ error, root.compile = .error error ↔
      ∃ kind, root.FirstEmpty kind ∧ error = .emptyStack kind ∧
        error.code = "EMPTY_TREE" ∧
        error.message = kind.name ++ " has no children to compose" := by
  constructor
  · rw [← exists_firstEmpty?_iff]
    simp only [compile_eq_error_iff]
    constructor
    · rintro ⟨_, kind, first, _⟩
      exact ⟨kind, first⟩
    · rintro ⟨kind, first⟩
      exact ⟨_, kind, first, rfl⟩
  · intro error
    rw [compile_eq_error_iff]
    simp only [firstEmpty?_eq_some_iff]
    constructor
    · rintro ⟨kind, first, rfl⟩
      exact ⟨kind, first, rfl, rfl, rfl⟩
    · rintro ⟨kind, first, same, _⟩
      exact ⟨kind, first, same⟩

end Montage
