import Montage.Proofs.FilterGraph.Picture
import Montage.Proofs.FilterGraph.Relabelling

/-!
# Normal forms of trees

Different trees may have one graph: a layered stack with a single child is
that child, a layered stack as a base is part of the stack on it, and an
offset matters only where a layer is laid.  Trees are brought into a normal
form in which nothing of this is left.  Two trees have the same graph, as it is
written, exactly if they have the same normal form.
-/

namespace Montage

/-! ## Normal forms -/

mutual

/-- Puts its only child in the place of every layered stack that has just one;
the child takes the offset of the stack. -/
def Node.collapse : Node → Node
  | .resource path offset => .resource path offset
  | .stack .layered [child] offset => child.collapse.place offset
  | .stack kind children offset => .stack kind (collapseAll children) offset

def collapseAll : List Node → List Node
  | [] => []
  | node :: rest => node.collapse :: collapseAll rest

end

/-- What a base contributes to the layered stack on it: its children if it is
one itself. -/
def Node.contents : Node → List Node
  | .stack .layered children _ => children
  | node => [node]

mutual

/-- Takes every layered stack that is the base of another one apart. -/
def Node.splice : Node → Node
  | .resource path offset => .resource path offset
  | .stack .layered (base :: layers) offset =>
      .stack .layered (base.splice.contents ++ spliceAll layers) offset
  | .stack kind children offset => .stack kind (spliceAll children) offset

def spliceAll : List Node → List Node
  | [] => []
  | node :: rest => node.splice :: spliceAll rest

end

/-- A tree in which some nodes have an offset, as it is written. -/
inductive Arrangement where
  | resource (path : String) (place : Option (String × String))
  | stack (kind : StackKind) (children : List Arrangement)
      (place : Option (String × String))
deriving Repr

def Position.texts (position : Position) : String × String :=
  (position.x.text, position.y.text)

mutual

/-- Drops all offsets but those of layers. -/
def Node.forget (place : Option (String × String)) : Node → Arrangement
  | .resource path _ => .resource path place
  | .stack (.linear axis) children _ =>
      .stack (.linear axis) (forgetAll children) place
  | .stack .layered [] _ => .stack .layered [] place
  | .stack .layered (base :: layers) _ =>
      .stack .layered (base.forget none :: forgetLayers layers) place

def forgetAll : List Node → List Arrangement
  | [] => []
  | node :: rest => node.forget none :: forgetAll rest

def forgetLayers : List Node → List Arrangement
  | [] => []
  | layer :: rest => layer.forget (some layer.offset.texts) :: forgetLayers rest

end

def Node.normalForm (node : Node) : Arrangement := node.collapse.splice.forget none

/-! ## Offsets under rewriting -/

theorem collapse_linear (axis : Axis) (children : List Node) (offset : Position) :
    (Node.stack (.linear axis) children offset).collapse =
      .stack (.linear axis) (collapseAll children) offset := by
  simp [Node.collapse]

theorem splice_linear (axis : Axis) (children : List Node) (offset : Position) :
    (Node.stack (.linear axis) children offset).splice =
      .stack (.linear axis) (spliceAll children) offset := by
  simp [Node.splice]

theorem collapse_layered (base layer : Node) (layers : List Node)
    (offset : Position) :
    (Node.stack .layered (base :: layer :: layers) offset).collapse =
      .stack .layered (collapseAll (base :: layer :: layers)) offset := by
  simp [Node.collapse]

@[simp] theorem offset_collapse (node : Node) : node.collapse.offset = node.offset := by
  match node with
  | .resource path offset => rfl
  | .stack (.linear axis) children offset => simp [Node.collapse, Node.offset]
  | .stack .layered [] offset => simp [Node.collapse, Node.offset]
  | .stack .layered [child] offset =>
      rw [Node.collapse, Node.offset_place]
      rfl
  | .stack .layered (base :: layer :: layers) offset =>
      rw [collapse_layered]
      rfl

@[simp] theorem offset_splice (node : Node) : node.splice.offset = node.offset := by
  rcases node with ⟨path, offset⟩ | ⟨_ | _, _ | ⟨base, layers⟩, offset⟩ <;>
    simp [Node.splice, Node.offset]

theorem splice_place (node : Node) (offset : Position) :
    (node.place offset).splice = node.splice.place offset := by
  rcases node with ⟨path, _⟩ | ⟨_ | _, _ | ⟨base, layers⟩, _⟩ <;>
    simp [Node.splice, Node.place]

theorem forget_place (node : Node) (offset : Position)
    (place : Option (String × String)) :
    (node.place offset).forget place = node.forget place := by
  rcases node with ⟨path, _⟩ | ⟨_ | _, _ | ⟨base, layers⟩, _⟩ <;>
    simp [Node.forget, Node.place]

def Arrangement.place : Arrangement → Option (String × String)
  | .resource _ place => place
  | .stack _ _ place => place

theorem place_forget (node : Node) (place : Option (String × String)) :
    (node.forget place).place = place := by
  rcases node with ⟨path, _⟩ | ⟨_ | _, _ | ⟨base, layers⟩, _⟩ <;>
    simp [Node.forget, Arrangement.place]

/-! ## Rewriting keeps the graph -/

theorem Compiles.place {slot stage : Nat} {node : Node} {graph : Graph}
    (compiles : Compiles slot stage node graph) (offset : Position) :
    Compiles slot stage (node.place offset) graph := by
  cases compiles with
  | resource => exact .resource
  | linear children => exact .linear children
  | layered base layers => exact .layered base layers

mutual

theorem Compiles.collapse {slot stage : Nat} {node : Node} {graph : Graph}
    (compiles : Compiles slot stage node graph) :
    Compiles slot stage node.collapse graph := by
  cases compiles with
  | resource => exact .resource
  | linear children =>
      rw [collapse_linear]
      exact .linear children.collapse
  | @layered _ _ base layers offset below _ baseDerivation layersDerivation =>
      have baseCollapsed := baseDerivation.collapse
      have layersCollapsed := layersDerivation.collapse
      cases layers with
      | nil =>
          cases layersCollapsed
          exact baseCollapsed.place offset
      | cons layer layers =>
          rw [collapse_layered]
          exact .layered baseCollapsed layersCollapsed

theorem CompilesAll.collapse {slot stage : Nat} {nodes : List Node}
    {bundle : Bundle} (compiles : CompilesAll slot stage nodes bundle) :
    CompilesAll slot stage (collapseAll nodes) bundle := by
  cases compiles with
  | nil => exact .nil
  | cons first others => exact .cons first.collapse others.collapse

theorem Overlays.collapse {slot stage : Nat} {layers : List Node}
    {below graph : Graph} (overlays : Overlays slot stage below layers graph) :
    Overlays slot stage below (collapseAll layers) graph := by
  cases overlays with
  | done => exact .done
  | @lay _ _ node _ _ _ _ layer rest =>
      refine .lay layer.collapse ?_
      rw [offset_collapse]
      exact rest.collapse

end

theorem Overlays.append {slot stage : Nat} {front back : List Node}
    {below middle graph : Graph} (first : Overlays slot stage below front middle)
    (second : Overlays slot stage middle back graph) :
    Overlays slot stage below (front ++ back) graph := by
  induction front generalizing below with
  | nil =>
      cases first
      exact second
  | cons node front induction =>
      cases first with
      | lay layer rest => exact .lay layer (induction rest)

theorem Compiles.contents {slot stage : Nat} {base : Node} {layers : List Node}
    {below graph : Graph} (baseCompiles : Compiles slot stage base below)
    (overlays : Overlays slot stage below layers graph) (offset : Position) :
    Compiles slot stage (.stack .layered (base.contents ++ layers) offset) graph := by
  cases baseCompiles with
  | resource => exact .layered .resource overlays
  | linear children => exact .layered (.linear children) overlays
  | layered innerBase innerLayers =>
      exact .layered innerBase (innerLayers.append overlays)

mutual

theorem Compiles.splice {slot stage : Nat} {node : Node} {graph : Graph}
    (compiles : Compiles slot stage node graph) :
    Compiles slot stage node.splice graph := by
  cases compiles with
  | resource => exact .resource
  | linear children =>
      rw [splice_linear]
      exact .linear children.splice
  | @layered _ _ base layers offset below _ baseDerivation layersDerivation =>
      rw [Node.splice]
      exact baseDerivation.splice.contents layersDerivation.splice offset

theorem CompilesAll.splice {slot stage : Nat} {nodes : List Node}
    {bundle : Bundle} (compiles : CompilesAll slot stage nodes bundle) :
    CompilesAll slot stage (spliceAll nodes) bundle := by
  cases compiles with
  | nil => exact .nil
  | cons first others => exact .cons first.splice others.splice

theorem Overlays.splice {slot stage : Nat} {layers : List Node}
    {below graph : Graph} (overlays : Overlays slot stage below layers graph) :
    Overlays slot stage below (spliceAll layers) graph := by
  cases overlays with
  | done => exact .done
  | lay layer rest =>
      refine .lay layer.splice ?_
      rw [offset_splice]
      exact rest.splice

end

/-! ## Forgetting offsets keeps the texts -/

/-- Graphs that are written alike. -/
structure Graph.SameTexts (first second : Graph) : Prop where
  inputs : first.inputs = second.inputs
  texts : first.texts = second.texts
  output : first.output = second.output
  warnings : first.warnings = second.warnings

structure Bundle.SameTexts (first second : Bundle) : Prop where
  inputs : first.inputs = second.inputs
  texts : first.filters.map Filter.text = second.filters.map Filter.text
  outputs : first.outputs = second.outputs
  warnings : first.warnings = second.warnings

theorem Graph.SameTexts.filters_length {first second : Graph}
    (same : first.SameTexts second) :
    first.filters.length = second.filters.length :=
  filters_length_eq same.texts

theorem Bundle.SameTexts.cons {first second : Graph} {others rest : Bundle}
    (head : first.SameTexts second) (tail : others.SameTexts rest) :
    (Bundle.cons first others).SameTexts (.cons second rest) := by
  have headTexts : first.filters.map Filter.text = second.filters.map Filter.text :=
    head.texts
  constructor <;>
    simp only [Bundle.cons, List.map_append, head.inputs, head.output, head.warnings,
      headTexts, tail.inputs, tail.texts, tail.outputs, tail.warnings]

theorem Bundle.SameTexts.stacked {first second : Bundle}
    (same : first.SameTexts second) (stage : Nat) (axis : Axis) :
    (first.stacked stage axis).SameTexts (second.stacked stage axis) := by
  have lengths := filters_length_eq same.texts
  constructor <;>
    simp only [Bundle.stacked, Graph.texts, List.map_append, same.inputs, same.texts,
      same.outputs, same.warnings, lengths]

theorem Graph.SameTexts.overlaid {first second below above : Graph}
    {firstPosition secondPosition : Position}
    (same : first.SameTexts second) (layers : below.SameTexts above)
    (places : firstPosition.texts = secondPosition.texts) (stage : Nat) :
    (first.overlaid stage firstPosition below).SameTexts
      (second.overlaid stage secondPosition above) := by
  obtain ⟨xTexts, yTexts⟩ := Prod.mk.inj places
  refine { inputs := ?_, texts := ?_, output := ?_, warnings := ?_ }
  · simp only [Graph.overlaid, same.inputs, layers.inputs]
  · simp only [Graph.texts_overlaid, same.texts, same.output, layers.texts,
      layers.output, same.filters_length, layers.filters_length, xTexts, yTexts]
  · simp only [Graph.overlaid, same.filters_length, layers.filters_length]
  · simp only [Graph.overlaid, same.warnings, layers.warnings]

theorem place_eq_of_forget_eq {first second : Node}
    {firstPlace secondPlace : Option (String × String)}
    (same : first.forget firstPlace = second.forget secondPlace) :
    firstPlace = secondPlace := by
  have places := congrArg Arrangement.place same
  rwa [place_forget, place_forget] at places

mutual

/-- Trees that differ in forgotten offsets only have graphs that are written
alike. -/
theorem Compiles.sameTexts_of_forget {slot stage : Nat} {first second : Node}
    {firstGraph secondGraph : Graph} {place : Option (String × String)}
    (firstCompiles : Compiles slot stage first firstGraph)
    (secondCompiles : Compiles slot stage second secondGraph)
    (same : first.forget place = second.forget place) :
    firstGraph.SameTexts secondGraph := by
  cases firstCompiles with
  | resource =>
      cases secondCompiles with
      | resource =>
          rw [Node.forget, Node.forget, Arrangement.resource.injEq] at same
          rw [same.1]
          exact ⟨rfl, rfl, rfl, rfl⟩
      | linear _ => cases same
      | layered _ _ => cases same
  | linear children =>
      cases secondCompiles with
      | resource => cases same
      | linear others =>
          simp only [Node.forget, Arrangement.stack.injEq, StackKind.linear.injEq] at same
          obtain ⟨rfl, childrenSame, _⟩ := same
          exact (children.sameTexts_of_forget others childrenSame).stacked stage _
      | layered _ _ => cases same
  | layered base layers =>
      cases secondCompiles with
      | resource => cases same
      | linear _ => cases same
      | layered otherBase otherLayers =>
          simp only [Node.forget, Arrangement.stack.injEq, List.cons.injEq] at same
          obtain ⟨_, ⟨baseSame, layersSame⟩, _⟩ := same
          exact layers.sameTexts_of_forget otherLayers
            (base.sameTexts_of_forget otherBase baseSame) layersSame

theorem CompilesAll.sameTexts_of_forget {slot stage : Nat}
    {firstNodes secondNodes : List Node} {first second : Bundle}
    (firstCompiles : CompilesAll slot stage firstNodes first)
    (secondCompiles : CompilesAll slot stage secondNodes second)
    (same : forgetAll firstNodes = forgetAll secondNodes) :
    first.SameTexts second := by
  cases firstCompiles with
  | nil =>
      cases secondCompiles with
      | nil => exact ⟨rfl, rfl, rfl, rfl⟩
      | cons _ _ => cases same
  | cons head tail =>
      cases secondCompiles with
      | nil => cases same
      | cons otherHead otherTail =>
          obtain ⟨headSame, tailSame⟩ := List.cons.inj same
          have heads := head.sameTexts_of_forget otherHead headSame
          rw [← heads.inputs, ← heads.filters_length] at otherTail
          exact .cons heads (tail.sameTexts_of_forget otherTail tailSame)

theorem Overlays.sameTexts_of_forget {slot stage : Nat}
    {firstLayers secondLayers : List Node}
    {firstBelow secondBelow firstGraph secondGraph : Graph}
    (firstOverlays : Overlays slot stage firstBelow firstLayers firstGraph)
    (secondOverlays : Overlays slot stage secondBelow secondLayers secondGraph)
    (below : firstBelow.SameTexts secondBelow)
    (same : forgetLayers firstLayers = forgetLayers secondLayers) :
    firstGraph.SameTexts secondGraph := by
  cases firstOverlays with
  | done =>
      cases secondOverlays with
      | done => exact below
      | lay _ _ => cases same
  | lay layer rest =>
      cases secondOverlays with
      | done => cases same
      | lay otherLayer otherRest =>
          obtain ⟨layerSame, restSame⟩ := List.cons.inj same
          have places := Option.some.inj (place_eq_of_forget_eq layerSame)
          rw [places] at layerSame
          rw [← below.inputs, ← below.filters_length] at otherLayer
          have layers := layer.sameTexts_of_forget otherLayer layerSame
          exact rest.sameTexts_of_forget otherRest
            (below.overlaid layers places stage) restSame

end

/-! ## The normal form of a picture -/

def Arrangement.contents : Arrangement → List Arrangement
  | .stack .layered children _ => children
  | arrangement => [arrangement]

mutual

/-- The normal form of the trees that have a picture. -/
def Picture.arrange (place : Option (String × String)) : Picture → Arrangement
  | .leaf _ path => .resource path place
  | .stack axis parts => .stack (.linear axis) (arrangeAll parts) place
  | .overlaid below above x y =>
      .stack .layered
        ((below.arrange none).contents ++ [above.arrange (some (x, y))]) place

def arrangeAll : List Picture → List Arrangement
  | [] => []
  | picture :: rest => picture.arrange none :: arrangeAll rest

end

/-- The normal forms of the pictures of layers, each at its own offset. -/
def arrangeLayers (slot : Nat) : List Node → List Arrangement
  | [] => []
  | layer :: rest =>
      (layer.picture slot).arrange (some layer.offset.texts) ::
        arrangeLayers (slot + layer.paths.length) rest

/-- A composite of several layers is one layered stack. -/
theorem arrange_covered (slot : Nat) (below : Picture) (layer : Node)
    (rest : List Node) (place : Option (String × String)) :
    (covered slot below (layer :: rest)).arrange place =
      .stack .layered
        ((below.arrange none).contents ++ arrangeLayers slot (layer :: rest)) place := by
  induction rest generalizing slot below layer with
  | nil => rfl
  | cons next rest induction =>
      rw [covered, induction]
      simp [Picture.arrange, Arrangement.contents, arrangeLayers, Position.texts]

theorem forgetLayers_append (front back : List Node) :
    forgetLayers (front ++ back) = forgetLayers front ++ forgetLayers back := by
  induction front with
  | nil => rfl
  | cons layer front induction => simp [forgetLayers, induction]

/-- The first child of a layered stack is its base, the others are layers,
whatever the base contributes. -/
theorem Compiles.forget_contents {slot stage : Nat} {base : Node} {graph : Graph}
    (compiles : Compiles slot stage base graph) (layers : List Node)
    (offset : Position) (place : Option (String × String)) :
    (Node.stack .layered (base.contents ++ layers) offset).forget place =
      .stack .layered ((base.forget none).contents ++ forgetLayers layers) place := by
  cases compiles with
  | resource => rfl
  | linear children => rfl
  | layered innerBase innerLayers =>
      simp [Node.contents, Node.forget, forgetLayers_append, Arrangement.contents]

mutual

/-- The picture of a tree has the tree's normal form. -/
theorem Compiles.arrange_picture {slot stage : Nat} {node : Node} {graph : Graph}
    (compiles : Compiles slot stage node graph) (number : Nat)
    (place : Option (String × String)) :
    (node.picture number).arrange place = node.collapse.splice.forget place := by
  cases compiles with
  | resource => rfl
  | linear children =>
      rw [collapse_linear, splice_linear, Node.forget, Node.picture, Picture.arrange,
        children.arrange_pictures]
  | @layered _ _ base layers offset below _ baseDerivation layersDerivation =>
      have basePicture := baseDerivation.arrange_picture number
      have layerPictures := layersDerivation.arrangeLayers_eq
        (number + base.paths.length)
      cases layers with
      | nil =>
          rw [Node.collapse, splice_place, forget_place, ← basePicture]
          rfl
      | cons layer layers =>
          rw [collapse_layered, collapseAll, Node.splice,
            baseDerivation.collapse.splice.forget_contents, ← basePicture,
            Node.picture, arrange_covered, layerPictures]

theorem CompilesAll.arrange_pictures {slot stage : Nat} {nodes : List Node}
    {bundle : Bundle} (compiles : CompilesAll slot stage nodes bundle)
    (number : Nat) :
    arrangeAll (pictures number nodes) = forgetAll (spliceAll (collapseAll nodes)) := by
  cases compiles with
  | nil => rfl
  | cons first others =>
      rw [pictures, arrangeAll, first.arrange_picture, others.arrange_pictures]
      rfl

theorem Overlays.arrangeLayers_eq {slot stage : Nat} {layers : List Node}
    {below graph : Graph} (overlays : Overlays slot stage below layers graph)
    (number : Nat) :
    arrangeLayers number layers =
      forgetLayers (spliceAll (collapseAll layers)) := by
  cases overlays with
  | done => rfl
  | lay layer rest =>
      rw [arrangeLayers, layer.arrange_picture, rest.arrangeLayers_eq, collapseAll,
        spliceAll, forgetLayers, offset_splice, offset_collapse]

end

/-! ## What a graph tells of its tree -/

/-- The arguments of a graph depend on what is written of it only. -/
theorem arguments_congr {first second : Graph} (inputs : first.inputs = second.inputs)
    (texts : first.texts = second.texts) (output : first.output = second.output) :
    first.arguments = second.arguments := by
  have filters : first.filters.map Filter.text = second.filters.map Filter.text := texts
  rw [Graph.arguments, Graph.arguments, inputs, filters, output]

/-- Two trees without empty stacks have graphs that are written alike exactly
if they have the same normal form, and then their warnings are the same. -/
theorem same_graph_iff_same_normalForm (first second : Node)
    (firstPopulated : first.Populated) (secondPopulated : second.Populated) :
    ∃ firstGraph secondGraph,
      first.compile = .ok firstGraph ∧ second.compile = .ok secondGraph ∧
      ((firstGraph.inputs = secondGraph.inputs ∧
          firstGraph.texts = secondGraph.texts ∧
          firstGraph.output = secondGraph.output) ↔
        first.normalForm = second.normalForm) ∧
      (first.normalForm = second.normalForm →
        firstGraph.warnings = secondGraph.warnings) := by
  obtain ⟨firstGraph, firstCompiles⟩ := firstPopulated.compiles 0 0
  obtain ⟨secondGraph, secondCompiles⟩ := secondPopulated.compiles 0 0
  have sameTexts (same : first.normalForm = second.normalForm) :
      firstGraph.SameTexts secondGraph :=
    firstCompiles.collapse.splice.sameTexts_of_forget
      secondCompiles.collapse.splice same
  refine ⟨firstGraph, secondGraph, compile_eq_ok_iff.mpr firstCompiles,
    compile_eq_ok_iff.mpr secondCompiles, ⟨?_, ?_⟩, ?_⟩
  · -- One text has one picture, and each tree's normal form can be read off it.
    rintro ⟨inputs, texts, output⟩
    have pictures : some (first.picture 0) = some (second.picture 0) := by
      rw [← firstCompiles.pictureOf?_arguments, ← secondCompiles.pictureOf?_arguments,
        arguments_congr inputs texts output]
    calc
      first.normalForm = (first.picture 0).arrange none :=
        (firstCompiles.arrange_picture 0 none).symm
      _ = (second.picture 0).arrange none := by rw [Option.some.inj pictures]
      _ = second.normalForm := secondCompiles.arrange_picture 0 none
  · intro same
    exact ⟨(sameTexts same).inputs, (sameTexts same).texts, (sameTexts same).output⟩
  · intro same
    exact (sameTexts same).warnings

/-- The layers of `nestedLayers` in a single stack. -/
def flatLayers : Node :=
  zstack [
    .node (resource "clip.mp4"),
    .node (resourceAt "logo.png" (.pixels 8 9)),
    .node ((hstack [.node (resource "left.mp4"), .node (resource "right.mp4")]).place
      (.pixels 10 20))]

theorem nestedLayers_same_graph_flatLayers :
    nestedLayers.Populated ∧ flatLayers.Populated ∧
      ∃ firstGraph secondGraph,
        nestedLayers.compile = .ok firstGraph ∧ flatLayers.compile = .ok secondGraph ∧
        ((firstGraph.inputs = secondGraph.inputs ∧
            firstGraph.texts = secondGraph.texts ∧
            firstGraph.output = secondGraph.output) ↔
          nestedLayers.normalForm = flatLayers.normalForm) ∧
        (nestedLayers.normalForm = flatLayers.normalForm →
          firstGraph.warnings = secondGraph.warnings) :=
  ⟨by decide, by decide,
    same_graph_iff_same_normalForm nestedLayers flatLayers (by decide) (by decide)⟩

example : nestedLayers.normalForm = flatLayers.normalForm := rfl

end Montage
