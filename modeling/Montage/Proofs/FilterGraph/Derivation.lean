import Montage.Composition.Keynotes
import Montage.FilterGraph.Compile
import Montage.Proofs.Computation

/-!
# Derivations of compilations

`Compiles` relates a tree to its graph by one rule for each way in which a
filter comes about.  It holds exactly of the graphs that the compiler returns,
so what every compilation keeps is shown by cases on these rules.  A tree in
which every stack has children always has a graph.
-/

namespace Montage

mutual

/-- A tree, the first slot and the first stage of its graph, and the graph. -/
inductive Compiles : Nat → Nat → Node → Graph → Prop where
  | resource {slot stage : Nat} {path : String} {offset : Position} :
      Compiles slot stage (.resource path offset) ⟨[path], [], .input slot, []⟩
  | linear {slot stage : Nat} {axis : Axis} {first : Node} {rest : List Node}
      {offset : Position} {children : Bundle} :
      CompilesAll slot stage (first :: rest) children →
      Compiles slot stage (.stack (.linear axis) (first :: rest) offset)
        (children.stacked stage axis)
  | layered {slot stage : Nat} {base : Node} {layers : List Node}
      {offset : Position} {below graph : Graph} :
      Compiles slot stage base below →
      Overlays slot stage below layers graph →
      Compiles slot stage (.stack .layered (base :: layers) offset) graph

/-- Neighbouring trees and their joined graphs. -/
inductive CompilesAll : Nat → Nat → List Node → Bundle → Prop where
  | nil {slot stage : Nat} : CompilesAll slot stage [] ⟨[], [], [], []⟩
  | cons {slot stage : Nat} {node : Node} {rest : List Node}
      {first : Graph} {others : Bundle} :
      Compiles slot stage node first →
      CompilesAll (slot + first.inputs.length) (stage + first.filters.length)
        rest others →
      CompilesAll slot stage (node :: rest) (.cons first others)

/-- A composite, the layers laid over it in turn, and the graph of the whole. -/
inductive Overlays : Nat → Nat → Graph → List Node → Graph → Prop where
  | done {slot stage : Nat} {below : Graph} :
      Overlays slot stage below [] below
  | lay {slot stage : Nat} {node : Node} {rest : List Node}
      {below layer graph : Graph} :
      Compiles (slot + below.inputs.length) (stage + below.filters.length)
        node layer →
      Overlays slot stage (below.overlaid stage node.offset layer) rest graph →
      Overlays slot stage below (node :: rest) graph

end

theorem getElem?_of_drop_eq_cons {α : Type} {items rest : List α} {item : α}
    {index : Nat} (remaining : items.drop index = item :: rest) :
    items[index]? = some item := by
  have head : (items.drop index)[0]? = items[index + 0]? := List.getElem?_drop
  rw [remaining] at head
  exact head.symm

/-! ## Derivations and the compiler -/

mutual

theorem Compiles.compileFrom_eq {slot stage : Nat} {node : Node} {graph : Graph}
    (compiles : Compiles slot stage node graph) :
    node.compileFrom slot stage = .ok graph := by
  cases compiles with
  | resource => rw [Node.compileFrom]
  | linear children =>
      have childrenResult := children.compileAll_eq
      rw [Node.compileFrom, childrenResult]
      rfl
  | layered base layers =>
      have baseResult := base.compileFrom_eq
      have layersResult := layers.overlayAll_eq
      rw [Node.compileFrom, baseResult]
      exact layersResult

theorem CompilesAll.compileAll_eq {slot stage : Nat} {nodes : List Node}
    {bundle : Bundle} (compiles : CompilesAll slot stage nodes bundle) :
    compileAll slot stage nodes = .ok bundle := by
  cases compiles with
  | nil => rw [compileAll]
  | cons first others =>
      have firstResult := first.compileFrom_eq
      have othersResult := others.compileAll_eq
      simp only [compileAll, firstResult, othersResult, bind, Except.bind,
        pure, Except.pure]

theorem Overlays.overlayAll_eq {slot stage : Nat} {layers : List Node}
    {below graph : Graph} (overlays : Overlays slot stage below layers graph) :
    overlayAll slot stage below layers = .ok graph := by
  cases overlays with
  | done => rw [overlayAll]
  | lay layer rest =>
      have layerResult := layer.compileFrom_eq
      have restResult := rest.overlayAll_eq
      rw [overlayAll, layerResult]
      exact restResult

end

mutual

theorem compiles_of_compileFrom {slot stage : Nat} {node : Node} {graph : Graph}
    (success : node.compileFrom slot stage = .ok graph) :
    Compiles slot stage node graph := by
  match node with
  | .resource path offset =>
      rw [Node.compileFrom, Except.ok.injEq] at success
      subst graph
      exact .resource
  | .stack (.linear axis) [] offset => rw [Node.compileFrom] at success; cases success
  | .stack (.linear axis) (first :: rest) offset =>
      rw [Node.compileFrom] at success
      obtain ⟨children, childrenResult, result⟩ := exists_of_bind_eq_ok success
      cases result
      exact .linear (compilesAll_of_compileAll childrenResult)
  | .stack .layered [] offset => rw [Node.compileFrom] at success; cases success
  | .stack .layered (base :: layers) offset =>
      rw [Node.compileFrom] at success
      obtain ⟨below, baseResult, layersResult⟩ := exists_of_bind_eq_ok success
      exact .layered (compiles_of_compileFrom baseResult)
        (overlays_of_overlayAll layersResult)

theorem compilesAll_of_compileAll {slot stage : Nat} {nodes : List Node}
    {bundle : Bundle} (success : compileAll slot stage nodes = .ok bundle) :
    CompilesAll slot stage nodes bundle := by
  match nodes with
  | [] =>
      rw [compileAll, Except.ok.injEq] at success
      subst bundle
      exact .nil
  | node :: rest =>
      rw [compileAll] at success
      obtain ⟨first, firstResult, remaining⟩ := exists_of_bind_eq_ok success
      obtain ⟨others, othersResult, result⟩ := exists_of_bind_eq_ok remaining
      cases result
      exact .cons (compiles_of_compileFrom firstResult)
        (compilesAll_of_compileAll othersResult)

theorem overlays_of_overlayAll {slot stage : Nat} {layers : List Node}
    {below graph : Graph} (success : overlayAll slot stage below layers = .ok graph) :
    Overlays slot stage below layers graph := by
  match layers with
  | [] =>
      rw [overlayAll, Except.ok.injEq] at success
      subst graph
      exact .done
  | node :: rest =>
      rw [overlayAll] at success
      obtain ⟨layer, layerResult, restResult⟩ := exists_of_bind_eq_ok success
      exact .lay (compiles_of_compileFrom layerResult)
        (overlays_of_overlayAll restResult)

end

/-- The compiler returns a graph exactly if a derivation leads to it. -/
theorem compileFrom_eq_ok_iff {slot stage : Nat} {node : Node} {graph : Graph} :
    node.compileFrom slot stage = .ok graph ↔ Compiles slot stage node graph :=
  ⟨compiles_of_compileFrom, Compiles.compileFrom_eq⟩

/-- A composition's graph is the one derived with slots and stages from zero. -/
theorem compile_eq_ok_iff {root : Node} {graph : Graph} :
    root.compile = .ok graph ↔ Compiles 0 0 root graph :=
  compileFrom_eq_ok_iff

/-! ## Trees without empty stacks -/

mutual

/-- Every stack of the tree has children. -/
def Node.Populated : Node → Prop
  | .resource _ _ => True
  | .stack _ children _ => children ≠ [] ∧ AllPopulated children

def AllPopulated : List Node → Prop
  | [] => True
  | node :: rest => node.Populated ∧ AllPopulated rest

end

mutual

def Node.decidePopulated : (node : Node) → Decidable node.Populated
  | .resource _ _ => isTrue trivial
  | .stack _ [] _ => isFalse fun populated => populated.1 rfl
  | .stack _ (first :: rest) _ =>
      match decideAllPopulated (first :: rest) with
      | isTrue all => isTrue ⟨List.cons_ne_nil first rest, all⟩
      | isFalse lacking => isFalse fun populated => lacking populated.2

def decideAllPopulated : (nodes : List Node) → Decidable (AllPopulated nodes)
  | [] => isTrue trivial
  | node :: rest =>
      match node.decidePopulated, decideAllPopulated rest with
      | isTrue head, isTrue tail => isTrue ⟨head, tail⟩
      | isFalse head, _ => isFalse fun populated => head populated.1
      | _, isFalse tail => isFalse fun populated => tail populated.2

end

instance (node : Node) : Decidable node.Populated := node.decidePopulated

/-- A logo on a single clip, and a row of two clips on both. -/
def nestedLayers : Node :=
  zstack [
    .node (zstack [
      .node (zstack [.node (resource "clip.mp4")]),
      .node (resourceAt "logo.png" (.pixels 8 9))]),
    .node ((hstack [.node (resource "left.mp4"), .node (resource "right.mp4")]).place
      (.pixels 10 20))]

mutual

/-- A tree without empty stacks has a graph from every slot and stage on. -/
theorem Node.Populated.compiles {node : Node} (populated : node.Populated)
    (slot stage : Nat) : ∃ graph, Compiles slot stage node graph := by
  match node with
  | .resource path offset => exact ⟨_, .resource⟩
  | .stack kind [] offset => exact absurd rfl populated.1
  | .stack (.linear axis) (first :: rest) offset =>
      obtain ⟨children, derivation⟩ := compilesAll_of_allPopulated populated.2 slot stage
      exact ⟨_, .linear derivation⟩
  | .stack .layered (base :: layers) offset =>
      obtain ⟨below, baseDerivation⟩ :=
        Node.Populated.compiles populated.2.1 slot stage
      obtain ⟨graph, layersDerivation⟩ :=
        overlays_of_allPopulated populated.2.2 slot stage below
      exact ⟨graph, .layered baseDerivation layersDerivation⟩

theorem compilesAll_of_allPopulated {nodes : List Node}
    (populated : AllPopulated nodes) (slot stage : Nat) :
    ∃ bundle, CompilesAll slot stage nodes bundle := by
  match nodes with
  | [] => exact ⟨_, .nil⟩
  | node :: rest =>
      obtain ⟨first, firstDerivation⟩ :=
        Node.Populated.compiles populated.1 slot stage
      obtain ⟨others, othersDerivation⟩ :=
        compilesAll_of_allPopulated populated.2
          (slot + first.inputs.length) (stage + first.filters.length)
      exact ⟨_, .cons firstDerivation othersDerivation⟩

theorem overlays_of_allPopulated {layers : List Node}
    (populated : AllPopulated layers) (slot stage : Nat) (below : Graph) :
    ∃ graph, Overlays slot stage below layers graph := by
  match layers with
  | [] => exact ⟨below, .done⟩
  | node :: rest =>
      obtain ⟨layer, layerDerivation⟩ :=
        Node.Populated.compiles populated.1
          (slot + below.inputs.length) (stage + below.filters.length)
      obtain ⟨graph, restDerivation⟩ :=
        overlays_of_allPopulated populated.2 slot stage
          (below.overlaid stage node.offset layer)
      exact ⟨graph, .lay layerDerivation restDerivation⟩

end

/-! ## Paths -/

mutual

/-- The paths of a tree's media files, depth first and from left to right. -/
def Node.paths : Node → List String
  | .resource path _ => [path]
  | .stack _ children _ => allPaths children

def allPaths : List Node → List String
  | [] => []
  | node :: rest => node.paths ++ allPaths rest

end

mutual

theorem Compiles.inputs_eq {slot stage : Nat} {node : Node} {graph : Graph}
    (compiles : Compiles slot stage node graph) : graph.inputs = node.paths := by
  cases compiles with
  | resource => rfl
  | linear children => exact children.inputs_eq
  | @layered _ _ base layers offset below graph baseDerivation layersDerivation =>
      rw [layersDerivation.inputs_eq, baseDerivation.inputs_eq]
      rfl

theorem CompilesAll.inputs_eq {slot stage : Nat} {nodes : List Node}
    {bundle : Bundle} (compiles : CompilesAll slot stage nodes bundle) :
    bundle.inputs = allPaths nodes := by
  cases compiles with
  | nil => rfl
  | cons first others =>
      simp only [Bundle.cons, allPaths, first.inputs_eq, others.inputs_eq]

theorem Overlays.inputs_eq {slot stage : Nat} {layers : List Node}
    {below graph : Graph} (overlays : Overlays slot stage below layers graph) :
    graph.inputs = below.inputs ++ allPaths layers := by
  cases overlays with
  | done => exact (List.append_nil _).symm
  | lay layer rest =>
      rw [rest.inputs_eq]
      simp only [Graph.overlaid, allPaths, layer.inputs_eq, List.append_assoc]

end

/-- Neighbouring trees have one output each. -/
theorem CompilesAll.outputs_length {slot stage : Nat} {nodes : List Node}
    {bundle : Bundle} (compiles : CompilesAll slot stage nodes bundle) :
    bundle.outputs.length = nodes.length := by
  induction nodes generalizing slot stage bundle with
  | nil =>
      cases compiles
      rfl
  | cons node rest induction =>
      cases compiles with
      | cons first others => simp [Bundle.cons, induction others]

end Montage
