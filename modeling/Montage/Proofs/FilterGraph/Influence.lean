import Montage.Proofs.FilterGraph.EmptyStack
import Montage.Proofs.FilterGraph.NormalForm

/-!
# What paths and offsets influence

Trees of one shape differ in paths and offsets only.  Either the compiler
reports the same fault for both, or their graphs agree in everything but the
inputs and the places of overlays.  The overlay of a layer shows that layer's
own offset, and no other offset is shown anywhere.
-/

namespace Montage

/-! ## Shapes -/

/-- A tree without its paths and offsets. -/
inductive Shape where
  | resource
  | stack (kind : StackKind) (children : List Shape)

mutual

def Node.shape : Node → Shape
  | .resource _ _ => .resource
  | .stack kind children _ => .stack kind (shapes children)

def shapes : List Node → List Shape
  | [] => []
  | node :: rest => node.shape :: shapes rest

end

mutual

theorem Node.firstEmpty?_of_shape {first second : Node}
    (sameShape : first.shape = second.shape) :
    first.firstEmpty? = second.firstEmpty? := by
  match first, second with
  | .resource _ _, .resource _ _ => rfl
  | .resource _ _, .stack _ _ _ => cases sameShape
  | .stack _ _ _, .resource _ _ => cases sameShape
  | .stack kind [] _, .stack other [] _ =>
      cases sameShape
      rfl
  | .stack kind [] _, .stack other (node :: rest) _ => cases sameShape
  | .stack kind (node :: rest) _, .stack other [] _ => cases sameShape
  | .stack kind (node :: rest) _, .stack other (node' :: rest') _ =>
      rw [firstEmpty?_nonempty, firstEmpty?_nonempty]
      exact firstEmptyOf?_of_shapes (Shape.stack.inj sameShape).2

theorem firstEmptyOf?_of_shapes {first second : List Node}
    (sameShapes : shapes first = shapes second) :
    firstEmptyOf? first = firstEmptyOf? second := by
  match first, second with
  | [], [] => rfl
  | [], _ :: _ => cases sameShapes
  | _ :: _, [] => cases sameShapes
  | node :: rest, node' :: rest' =>
      obtain ⟨head, tail⟩ := List.cons.inj sameShapes
      rw [firstEmptyOf?_cons, firstEmptyOf?_cons, Node.firstEmpty?_of_shape head,
        firstEmptyOf?_of_shapes tail]

end

/-! ## The layer that a filter lays -/

mutual

/-- For each filter of a tree in turn the layer that it lays over a composite.
The filter of a linear stack lays none. -/
def Node.laid : Node → List (Option Node)
  | .resource _ _ => []
  | .stack (.linear _) children _ => laidAll children ++ [none]
  | .stack .layered [] _ => []
  | .stack .layered (base :: layers) _ => base.laid ++ laidOver layers

def laidAll : List Node → List (Option Node)
  | [] => []
  | node :: rest => node.laid ++ laidAll rest

/-- Each layer is laid as soon as it is complete. -/
def laidOver : List Node → List (Option Node)
  | [] => []
  | layer :: rest => layer.laid ++ some layer :: laidOver rest

end

/-- A child of a layered stack in the tree that is not its base. -/
def Node.LayerOf (layer root : Node) : Prop :=
  ∃ base layers offset,
    (Node.stack .layered (base :: layers) offset).Within root ∧ layer ∈ layers

mutual

theorem Node.layerOf_of_mem_laid {layer root : Node} (member : some layer ∈ root.laid) :
    layer.LayerOf root := by
  match root with
  | .resource _ _ => cases member
  | .stack (.linear axis) children offset =>
      rw [Node.laid] at member
      rcases List.mem_append.mp member with inChildren | last
      · obtain ⟨child, childMember, base, layers, place, within, listed⟩ :=
          exists_layerOf_of_mem_laidAll inChildren
        exact ⟨base, layers, place, .inChild childMember within, listed⟩
      · cases List.mem_singleton.mp last
  | .stack .layered [] _ => cases member
  | .stack .layered (base :: layers) offset =>
      rw [Node.laid] at member
      rcases List.mem_append.mp member with inBase | inLayers
      · obtain ⟨inner, others, place, within, listed⟩ := Node.layerOf_of_mem_laid inBase
        exact ⟨inner, others, place, .inChild List.mem_cons_self within, listed⟩
      · rcases mem_or_exists_layerOf_of_mem_laidOver inLayers with
          listed | ⟨child, childMember, inner, others, place, within, listed⟩
        · exact ⟨base, layers, offset, .root, listed⟩
        · exact ⟨inner, others, place,
            .inChild (List.mem_cons_of_mem _ childMember) within, listed⟩

theorem exists_layerOf_of_mem_laidAll {layer : Node} {nodes : List Node}
    (member : some layer ∈ laidAll nodes) : ∃ child ∈ nodes, layer.LayerOf child := by
  match nodes with
  | [] => cases member
  | node :: rest =>
      rw [laidAll] at member
      rcases List.mem_append.mp member with inNode | inRest
      · exact ⟨node, List.mem_cons_self, Node.layerOf_of_mem_laid inNode⟩
      · obtain ⟨child, childMember, inChild⟩ := exists_layerOf_of_mem_laidAll inRest
        exact ⟨child, List.mem_cons_of_mem _ childMember, inChild⟩

theorem mem_or_exists_layerOf_of_mem_laidOver {layer : Node} {layers : List Node}
    (member : some layer ∈ laidOver layers) :
    layer ∈ layers ∨ ∃ child ∈ layers, layer.LayerOf child := by
  match layers with
  | [] => cases member
  | node :: rest =>
      rw [laidOver] at member
      rcases List.mem_append.mp member with inNode | later
      · exact .inr ⟨node, List.mem_cons_self, Node.layerOf_of_mem_laid inNode⟩
      · rcases List.mem_cons.mp later with same | inRest
        · rw [Option.some.inj same]
          exact .inl List.mem_cons_self
        · rcases mem_or_exists_layerOf_of_mem_laidOver inRest with
            listed | ⟨child, childMember, inChild⟩
          · exact .inl (List.mem_cons_of_mem _ listed)
          · exact .inr ⟨child, List.mem_cons_of_mem _ childMember, inChild⟩

end

theorem mem_laidAll_of_mem {entry : Option Node} {child : Node} {nodes : List Node}
    (listed : child ∈ nodes) (member : entry ∈ child.laid) : entry ∈ laidAll nodes := by
  induction nodes with
  | nil => cases listed
  | cons node rest induction =>
      rw [laidAll, List.mem_append]
      rcases List.mem_cons.mp listed with rfl | inRest
      · exact .inl member
      · exact .inr (induction inRest)

theorem mem_laidOver_of_mem {entry : Option Node} {child : Node} {layers : List Node}
    (listed : child ∈ layers) (member : entry ∈ child.laid ∨ entry = some child) :
    entry ∈ laidOver layers := by
  induction layers with
  | nil => cases listed
  | cons node rest induction =>
      rw [laidOver, List.mem_append, List.mem_cons]
      rcases List.mem_cons.mp listed with rfl | inRest
      · rcases member with inChild | isChild
        · exact .inl inChild
        · exact .inr (.inl isChild)
      · exact .inr (.inr (induction inRest))

theorem mem_laid_of_mem_child {entry : Option Node} {kind : StackKind}
    {children : List Node} {offset : Position} {child : Node}
    (listed : child ∈ children) (member : entry ∈ child.laid) :
    entry ∈ (Node.stack kind children offset).laid := by
  match kind, children with
  | .linear _, children =>
      rw [Node.laid]
      exact List.mem_append_left _ (mem_laidAll_of_mem listed member)
  | .layered, [] => cases listed
  | .layered, base :: layers =>
      rw [Node.laid, List.mem_append]
      rcases List.mem_cons.mp listed with rfl | inLayers
      · exact .inl member
      · exact .inr (mem_laidOver_of_mem inLayers (.inl member))

theorem Node.LayerOf.mem_laid {layer root : Node} (laidIn : layer.LayerOf root) :
    some layer ∈ root.laid := by
  obtain ⟨base, layers, offset, within, listed⟩ := laidIn
  induction within with
  | root =>
      rw [Node.laid]
      exact List.mem_append_right _ (mem_laidOver_of_mem listed (.inr rfl))
  | inChild childMember _ induction => exact mem_laid_of_mem_child childMember induction

theorem some_mem_laid_iff {layer root : Node} :
    some layer ∈ root.laid ↔ layer.LayerOf root :=
  ⟨Node.layerOf_of_mem_laid, Node.LayerOf.mem_laid⟩

/-! ## Graphs of one shape -/

/-- Filters that lay given layers, if any, and agree but for the offsets of
these. -/
inductive Filter.Alike : Option Node → Option Node → Filter → Filter → Prop where
  | stacked (filter : Filter) : Alike none none filter filter
  | overlaid (below above : Stream) (target : Nat) (layer other : Node) :
      Alike (some layer) (some other)
        ⟨[below, above], .overlay layer.offset, target⟩
        ⟨[below, above], .overlay other.offset, target⟩

inductive FiltersAlike :
    List (Option Node) → List (Option Node) → List Filter → List Filter → Prop where
  | nil : FiltersAlike [] [] [] []
  | cons {layer other : Option Node} {laid laid' : List (Option Node)}
      {filter filter' : Filter} {filters filters' : List Filter} :
      Filter.Alike layer other filter filter' →
      FiltersAlike laid laid' filters filters' →
      FiltersAlike (layer :: laid) (other :: laid') (filter :: filters)
        (filter' :: filters')

namespace FiltersAlike

theorem append {frontLaid frontLaid' backLaid backLaid' : List (Option Node)}
    {front front' back back' : List Filter}
    (frontAlike : FiltersAlike frontLaid frontLaid' front front')
    (backAlike : FiltersAlike backLaid backLaid' back back') :
    FiltersAlike (frontLaid ++ backLaid) (frontLaid' ++ backLaid') (front ++ back)
      (front' ++ back') := by
  induction frontAlike with
  | nil => exact backAlike
  | cons head _ induction => exact .cons head induction

theorem length_eq {laid laid' : List (Option Node)} {filters filters' : List Filter}
    (alike : FiltersAlike laid laid' filters filters') :
    filters.length = filters'.length := by
  induction alike with
  | nil => rfl
  | cons _ _ induction => rw [List.length_cons, List.length_cons, induction]

theorem getElem? {laid laid' : List (Option Node)} {filters filters' : List Filter}
    (alike : FiltersAlike laid laid' filters filters') (index : Nat) :
    (laid[index]? = none ∧ filters[index]? = none ∧ filters'[index]? = none) ∨
      ∃ layer other filter filter',
        laid[index]? = some layer ∧ laid'[index]? = some other ∧
        filters[index]? = some filter ∧ filters'[index]? = some filter' ∧
        Filter.Alike layer other filter filter' := by
  induction alike generalizing index with
  | nil => exact .inl ⟨rfl, rfl, rfl⟩
  | cons head _ induction =>
      cases index with
      | zero => exact .inr ⟨_, _, _, _, rfl, rfl, rfl, rfl, head⟩
      | succ index => exact induction index

end FiltersAlike

structure Graph.Alike (laid laid' : List (Option Node)) (first second : Graph) :
    Prop where
  slots : first.inputs.length = second.inputs.length
  filters : FiltersAlike laid laid' first.filters second.filters
  output : first.output = second.output
  warnings : first.warnings = second.warnings

structure Bundle.Alike (laid laid' : List (Option Node)) (first second : Bundle) :
    Prop where
  slots : first.inputs.length = second.inputs.length
  filters : FiltersAlike laid laid' first.filters second.filters
  outputs : first.outputs = second.outputs
  warnings : first.warnings = second.warnings

theorem Bundle.Alike.cons {laid laid' restLaid restLaid' : List (Option Node)}
    {first second : Graph} {others rest : Bundle}
    (head : first.Alike laid laid' second) (tail : others.Alike restLaid restLaid' rest) :
    (Bundle.cons first others).Alike (laid ++ restLaid) (laid' ++ restLaid')
      (.cons second rest) := by
  refine { slots := ?_, filters := head.filters.append tail.filters, outputs := ?_, warnings := ?_ }
  · simp only [Bundle.cons, List.length_append, head.slots, tail.slots]
  · simp only [Bundle.cons, head.output, tail.outputs]
  · simp only [Bundle.cons, head.warnings, tail.warnings]

theorem Bundle.Alike.stacked {laid laid' : List (Option Node)} {first second : Bundle}
    (alike : first.Alike laid laid' second) (stage : Nat) (axis : Axis) :
    (first.stacked stage axis).Alike (laid ++ [none]) (laid' ++ [none])
      (second.stacked stage axis) := by
  have lengths := alike.filters.length_eq
  refine { slots := alike.slots, filters := ?_, output := ?_, warnings := ?_ }
  · simp only [Bundle.stacked, lengths, alike.outputs]
    exact alike.filters.append (.cons (.stacked _) .nil)
  · simp only [Bundle.stacked, lengths]
  · simp only [Bundle.stacked, alike.outputs, alike.warnings]

theorem Graph.Alike.overlaid {laid laid' layerLaid layerLaid' : List (Option Node)}
    {first second below above : Graph} (alike : first.Alike laid laid' second)
    (layers : below.Alike layerLaid layerLaid' above) (stage : Nat)
    (layer other : Node) :
    (first.overlaid stage layer.offset below).Alike
      (laid ++ (layerLaid ++ [some layer])) (laid' ++ (layerLaid' ++ [some other]))
      (second.overlaid stage other.offset above) := by
  have lengths := alike.filters.length_eq
  have layerLengths := layers.filters.length_eq
  refine { slots := ?_, filters := ?_, output := ?_, warnings := ?_ }
  · simp only [Graph.overlaid, List.length_append, alike.slots, layers.slots]
  · simp only [Graph.overlaid, List.append_assoc, lengths, layerLengths, alike.output,
      layers.output]
    exact alike.filters.append
      (layers.filters.append (.cons (.overlaid _ _ _ layer other) .nil))
  · simp only [Graph.overlaid, lengths, layerLengths]
  · simp only [Graph.overlaid, alike.warnings, layers.warnings]

mutual

theorem Compiles.alike {slot stage : Nat} {first second : Node}
    {firstGraph secondGraph : Graph}
    (firstCompiles : Compiles slot stage first firstGraph)
    (secondCompiles : Compiles slot stage second secondGraph)
    (sameShape : first.shape = second.shape) :
    firstGraph.Alike first.laid second.laid secondGraph := by
  cases firstCompiles with
  | resource =>
      cases secondCompiles with
      | resource => exact ⟨rfl, .nil, rfl, rfl⟩
      | linear _ => cases sameShape
      | layered _ _ => cases sameShape
  | linear children =>
      cases secondCompiles with
      | resource => cases sameShape
      | linear others =>
          simp only [Node.shape, Shape.stack.injEq, StackKind.linear.injEq] at sameShape
          obtain ⟨rfl, sameShapes⟩ := sameShape
          exact (children.alike others sameShapes).stacked stage _
      | layered _ _ => cases sameShape
  | layered base layers =>
      cases secondCompiles with
      | resource => cases sameShape
      | linear _ => cases sameShape
      | layered otherBase otherLayers =>
          obtain ⟨_, sameShapes⟩ := Shape.stack.inj sameShape
          obtain ⟨baseShape, layerShapes⟩ := List.cons.inj sameShapes
          exact layers.alike otherLayers (base.alike otherBase baseShape) layerShapes

theorem CompilesAll.alike {slot stage : Nat} {firstNodes secondNodes : List Node}
    {first second : Bundle} (firstCompiles : CompilesAll slot stage firstNodes first)
    (secondCompiles : CompilesAll slot stage secondNodes second)
    (sameShapes : shapes firstNodes = shapes secondNodes) :
    first.Alike (laidAll firstNodes) (laidAll secondNodes) second := by
  cases firstCompiles with
  | nil =>
      cases secondCompiles with
      | nil => exact ⟨rfl, .nil, rfl, rfl⟩
      | cons _ _ => cases sameShapes
  | cons head tail =>
      cases secondCompiles with
      | nil => cases sameShapes
      | cons otherHead otherTail =>
          obtain ⟨headShape, tailShapes⟩ := List.cons.inj sameShapes
          have heads := head.alike otherHead headShape
          rw [← heads.slots, ← heads.filters.length_eq] at otherTail
          exact .cons heads (tail.alike otherTail tailShapes)

theorem Overlays.alike {slot stage : Nat} {firstLayers secondLayers : List Node}
    {firstBelow secondBelow firstGraph secondGraph : Graph}
    {laid laid' : List (Option Node)}
    (firstOverlays : Overlays slot stage firstBelow firstLayers firstGraph)
    (secondOverlays : Overlays slot stage secondBelow secondLayers secondGraph)
    (below : firstBelow.Alike laid laid' secondBelow)
    (sameShapes : shapes firstLayers = shapes secondLayers) :
    firstGraph.Alike (laid ++ laidOver firstLayers) (laid' ++ laidOver secondLayers)
      secondGraph := by
  cases firstOverlays with
  | done =>
      cases secondOverlays with
      | done => simpa only [laidOver, List.append_nil] using below
      | lay _ _ => cases sameShapes
  | @lay _ _ node _ _ _ _ layer rest =>
      cases secondOverlays with
      | done => cases sameShapes
      | @lay _ _ otherNode _ _ _ _ otherLayer otherRest =>
          obtain ⟨headShape, tailShapes⟩ := List.cons.inj sameShapes
          rw [← below.slots, ← below.filters.length_eq] at otherLayer
          have laidOn := below.overlaid (layer.alike otherLayer headShape) stage node otherNode
          have whole := rest.alike otherRest laidOn tailShapes
          simpa only [laidOver, List.append_assoc, List.singleton_append] using whole

end

/-! ## What is written -/

def overlayText (below above : Stream) (offset : Position) (number : Nat) : String :=
  below.label ++ above.label ++ "overlay=" ++ offset.x.text ++ ":" ++ offset.y.text ++
    (Stream.stage number).label

theorem text_overlay (below above : Stream) (offset : Position) (target : Nat) :
    Filter.text ⟨[below, above], .overlay offset, target⟩ =
      overlayText below above offset target := by
  simp [Filter.text, Operation.text, overlayText, String.append_assoc]

/-- An overlay's text tells the texts of its offset. -/
theorem overlayText_inj {below above : Stream} {offset other : Position} {number : Nat}
    (same : overlayText below above offset number = overlayText below above other number) :
    offset.texts = other.texts := by
  rw [← text_overlay, ← text_overlay] at same
  have expressions := congrArg Expression.read? same
  simp only [Expression.read?_text, Filter.expression, Operation.action, Option.some.injEq,
    Expression.mk.injEq, Action.overlay.injEq, true_and, and_true] at expressions
  exact Prod.ext expressions.1 expressions.2

theorem overlayText_congr {below above : Stream} {offset other : Position} {number : Nat}
    (same : offset.texts = other.texts) :
    overlayText below above offset number = overlayText below above other number := by
  obtain ⟨xSame, ySame⟩ := Prod.mk.inj same
  rw [overlayText, overlayText, xSame, ySame]

/-- The graphs of two trees agree but for the inputs and the offsets of layers. -/
structure SameButOffsets (first second : Node) (firstGraph secondGraph : Graph) :
    Prop where
  firstInputs : firstGraph.inputs = first.paths
  secondInputs : secondGraph.inputs = second.paths
  slots : firstGraph.inputs.length = secondGraph.inputs.length
  output : firstGraph.output = secondGraph.output
  warnings : firstGraph.warnings = secondGraph.warnings
  length : firstGraph.texts.length = secondGraph.texts.length
  overlays : ∀ (index : Nat) (layer : Node), first.laid[index]? = some (some layer) →
    ∃ (other : Node) (below above : Stream), second.laid[index]? = some (some other) ∧
      firstGraph.texts[index]? = some (overlayText below above layer.offset index) ∧
      secondGraph.texts[index]? = some (overlayText below above other.offset index)
  differ : ∀ index : Nat, firstGraph.texts[index]? ≠ secondGraph.texts[index]? ↔
    ∃ layer other : Node, first.laid[index]? = some (some layer) ∧
      second.laid[index]? = some (some other) ∧
      layer.offset.texts ≠ other.offset.texts

/-- Filters of a whole graph are numbered by their positions. -/
theorem target_eq_index {root : Node} {graph : Graph} {index : Nat} {filter : Filter}
    (compiles : Compiles 0 0 root graph) (found : graph.filters[index]? = some filter) :
    filter.target = index := by
  obtain ⟨bound, rfl⟩ := List.getElem?_eq_some_iff.mp found
  have targets := congrArg (·[index]?) compiles.accounted.targets
  simpa [bound] using targets

theorem Compiles.sameButOffsets {first second : Node} {firstGraph secondGraph : Graph}
    (firstCompiles : Compiles 0 0 first firstGraph)
    (secondCompiles : Compiles 0 0 second secondGraph)
    (sameShape : first.shape = second.shape) :
    SameButOffsets first second firstGraph secondGraph := by
  have alike := firstCompiles.alike secondCompiles sameShape
  refine
    { firstInputs := firstCompiles.inputs_eq
      secondInputs := secondCompiles.inputs_eq
      slots := alike.slots
      output := alike.output
      warnings := alike.warnings
      length := ?_
      overlays := ?_
      differ := ?_ }
  · rw [Graph.texts, Graph.texts, List.length_map, List.length_map,
      alike.filters.length_eq]
  · intro index layer laid
    rcases alike.filters.getElem? index with
      ⟨nothing, _⟩ | ⟨_, _, _, _, firstLaid, secondLaid, found, found', same⟩
    · rw [laid] at nothing
      cases nothing
    · rw [laid, Option.some.injEq] at firstLaid
      subst firstLaid
      cases same with
      | overlaid below above target layer other =>
          have number : target = index := target_eq_index firstCompiles found
          subst number
          refine ⟨other, below, above, secondLaid, ?_, ?_⟩
          · rw [Graph.texts, List.getElem?_map, found, Option.map_some, text_overlay]
          · rw [Graph.texts, List.getElem?_map, found', Option.map_some, text_overlay]
  · intro index
    rw [Graph.texts, Graph.texts, List.getElem?_map, List.getElem?_map]
    rcases alike.filters.getElem? index with
      ⟨nothing, none₁, none₂⟩ | ⟨_, _, _, _, firstLaid, secondLaid, found, found', same⟩
    · simp [nothing, none₁, none₂]
    · rw [found, found', firstLaid, secondLaid]
      cases same with
      | stacked => simp
      | overlaid below above target layer other =>
          simp only [Option.map_some, text_overlay, ne_eq, Option.some.injEq]
          constructor
          · intro different
            refine ⟨layer, other, rfl, rfl, ?_⟩
            intro sameTexts
            exact different (overlayText_congr sameTexts)
          · rintro ⟨_, _, rfl, rfl, different⟩ sameTexts
            exact different (overlayText_inj sameTexts)

/-! ## Offsets without effect -/

/-- A tree and the same tree with an offset changed that no layer has: that of
the root, of a child of a linear stack or of a base, anywhere in the tree. -/
inductive Node.InertChange : Node → Node → Prop where
  | root (node : Node) (offset : Position) : InertChange node (node.place offset)
  | child {axis : Axis} {child changed : Node} (before after : List Node)
      (offset : Position) :
      InertChange child changed →
      InertChange (.stack (.linear axis) (before ++ child :: after) offset)
        (.stack (.linear axis) (before ++ changed :: after) offset)
  | base {base changed : Node} (layers : List Node) (offset : Position) :
      InertChange base changed →
      InertChange (.stack .layered (base :: layers) offset)
        (.stack .layered (changed :: layers) offset)
  | layer {layer changed : Node} (base : Node) (before after : List Node)
      (offset : Position) :
      InertChange layer changed → changed.offset = layer.offset →
      InertChange (.stack .layered (base :: (before ++ layer :: after)) offset)
        (.stack .layered (base :: (before ++ changed :: after)) offset)

theorem compileFrom_place (node : Node) (offset : Position) (slot stage : Nat) :
    (node.place offset).compileFrom slot stage = node.compileFrom slot stage := by
  rcases node with ⟨path, _⟩ | ⟨_ | _, _ | ⟨first, rest⟩, _⟩ <;>
    simp [Node.place, Node.compileFrom]

theorem compileFrom_linear (axis : Axis) (first : Node) (rest : List Node)
    (offset : Position) (slot stage : Nat) :
    (Node.stack (.linear axis) (first :: rest) offset).compileFrom slot stage =
      (compileAll slot stage (first :: rest)).map (·.stacked stage axis) := by
  rw [Node.compileFrom]
  cases compileAll slot stage (first :: rest) <;> rfl

section

variable {child changed : Node}
  (same : ∀ slot stage, changed.compileFrom slot stage = child.compileFrom slot stage)

include same

theorem compileAll_replace (before after : List Node) (slot stage : Nat) :
    compileAll slot stage (before ++ changed :: after) =
      compileAll slot stage (before ++ child :: after) := by
  induction before generalizing slot stage with
  | nil => simp only [List.nil_append, compileAll, same]
  | cons node before induction => simp only [List.cons_append, compileAll, induction]

theorem overlayAll_replace (sameOffset : changed.offset = child.offset)
    (before after : List Node) (slot stage : Nat) (below : Graph) :
    overlayAll slot stage below (before ++ changed :: after) =
      overlayAll slot stage below (before ++ child :: after) := by
  induction before generalizing below with
  | nil => simp only [List.nil_append, overlayAll, same, sameOffset]
  | cons node before induction => simp only [List.cons_append, overlayAll, induction]

end

theorem Node.InertChange.compileFrom_eq {first second : Node}
    (change : first.InertChange second) (slot stage : Nat) :
    second.compileFrom slot stage = first.compileFrom slot stage := by
  induction change generalizing slot stage with
  | root node offset => exact compileFrom_place node offset slot stage
  | child before after offset _ induction =>
      have replaced := compileAll_replace induction before after slot stage
      cases before with
      | nil =>
          rw [List.nil_append, List.nil_append] at replaced ⊢
          rw [compileFrom_linear, compileFrom_linear, replaced]
      | cons node before =>
          rw [List.cons_append, List.cons_append] at replaced ⊢
          rw [compileFrom_linear, compileFrom_linear, replaced]
  | base layers offset _ induction =>
      rw [Node.compileFrom, Node.compileFrom, induction]
  | layer base before after offset _ sameOffset induction =>
      rw [Node.compileFrom, Node.compileFrom]
      simp only [overlayAll_replace induction sameOffset]

/-- Of two trees of one shape, either both fail to compile and with the same
fault, or their graphs agree but for the inputs, which are the paths of each
tree, and the offsets of layers, each shown by its own overlay.  A change of
any other offset changes nothing. -/
theorem same_shape_same_graph_but_offsets (first second : Node)
    (sameShape : first.shape = second.shape) :
    ((∃ kind, first.compile = .error (.emptyStack kind) ∧
        second.compile = .error (.emptyStack kind)) ∨
      ∃ firstGraph secondGraph,
        first.compile = .ok firstGraph ∧ second.compile = .ok secondGraph ∧
          SameButOffsets first second firstGraph secondGraph) ∧
    (∀ layer, some layer ∈ first.laid ↔ layer.LayerOf first) ∧
    ∀ changed, first.InertChange changed → changed.compile = first.compile := by
  refine ⟨?_, fun _ => some_mem_laid_iff, fun _ change => change.compileFrom_eq 0 0⟩
  have sameFirst := Node.firstEmpty?_of_shape sameShape
  cases empty : first.firstEmpty? with
  | some kind =>
      have secondEmpty := sameFirst.symm.trans empty
      exact .inl ⟨kind, Node.compileFrom_eq_error empty 0 0,
        Node.compileFrom_eq_error secondEmpty 0 0⟩
  | none =>
      have secondEmpty := sameFirst.symm.trans empty
      obtain ⟨firstGraph, firstCompiles⟩ :=
        (Node.populated_of_firstEmpty? empty).compiles 0 0
      obtain ⟨secondGraph, secondCompiles⟩ :=
        (Node.populated_of_firstEmpty? secondEmpty).compiles 0 0
      exact .inr ⟨firstGraph, secondGraph, compile_eq_ok_iff.mpr firstCompiles,
        compile_eq_ok_iff.mpr secondCompiles,
        firstCompiles.sameButOffsets secondCompiles sameShape⟩

/-- `nestedLayers` with other paths and its logo in another place. -/
def movedLayers : Node :=
  zstack [
    .node (zstack [
      .node (zstack [.node (resource "[0];[1]overlay=0:0")]),
      .node (resourceAt "" (.pixels 80 90))]),
    .node ((hstack [.node (resourceAt "a;b" (.pixels 1 2)), .node (resource "\"c\"")]).place
      (.pixels 10 20))]

/-- The graph of these two trees, by its inputs and the place of the logo. -/
def layersGraph (inputs : List String) (logo : Position) : Graph where
  inputs := inputs
  filters := [
    ⟨[.input 0, .input 1], .overlay logo, 0⟩,
    ⟨[.input 2, .input 3], .stack .horizontal 2, 1⟩,
    ⟨[.stage 0, .stage 1], .overlay (.pixels 10 20), 2⟩]
  output := .stage 2
  warnings := []

def nestedGraph : Graph :=
  layersGraph ["clip.mp4", "logo.png", "left.mp4", "right.mp4"] (.pixels 8 9)

def movedGraph : Graph :=
  layersGraph ["[0];[1]overlay=0:0", "", "a;b", "\"c\""] (.pixels 80 90)

/-- The overlay of the logo is the one filter in which the two graphs differ. -/
theorem nestedLayers_movedLayers_same_graph_but_offsets :
    nestedLayers.shape = movedLayers.shape ∧
    (nestedLayers.compile = .ok nestedGraph ∧ movedLayers.compile = .ok movedGraph ∧
      SameButOffsets nestedLayers movedLayers nestedGraph movedGraph ∧
      nestedGraph.texts =
        ["[0][1]overlay=8:9[s0]", "[2][3]hstack=inputs=2[s1]", "[s0][s1]overlay=10:20[s2]"] ∧
      movedGraph.texts =
        ["[0][1]overlay=80:90[s0]", "[2][3]hstack=inputs=2[s1]", "[s0][s1]overlay=10:20[s2]"]) ∧
    (∀ layer, some layer ∈ nestedLayers.laid ↔ layer.LayerOf nestedLayers) ∧
    ∀ changed, nestedLayers.InertChange changed → changed.compile = nestedLayers.compile := by
  have nested : nestedLayers.compile = .ok nestedGraph := by decide
  have moved : movedLayers.compile = .ok movedGraph := by decide
  obtain ⟨either, laid, inert⟩ := same_shape_same_graph_but_offsets nestedLayers movedLayers rfl
  refine ⟨rfl, ⟨nested, moved, ?_, by decide +kernel, by decide +kernel⟩, laid, inert⟩
  rcases either with ⟨kind, fails, _⟩ | ⟨firstGraph, secondGraph, first, second, same⟩
  · rw [nested] at fails
    cases fails
  · cases nested.symm.trans first
    cases moved.symm.trans second
    exact same

end Montage
