import Montage.Proofs.FilterGraph.Derivation
import Montage.Proofs.FilterGraph.Script
import Mathlib.Data.List.Forall2

/-!
# Graphs of neighbouring trees

Where a tree stands changes nothing in its graph but the numbers of its slots
and stages.  So the graph of a stack is made of the graphs of its children,
each with its labels moved on by what its left neighbours take up; in a
layered stack an overlay comes after each layer and takes a stage as well.
-/

namespace Montage

/-! ## Moving labels on -/

def Stream.shift (slots stages : Nat) : Stream → Stream
  | .input slot => .input (slot + slots)
  | .stage number => .stage (number + stages)

def Filter.shift (slots stages : Nat) (filter : Filter) : Filter :=
  { sources := filter.sources.map (Stream.shift slots stages)
    operation := filter.operation
    target := filter.target + stages }

def Graph.shift (slots stages : Nat) (graph : Graph) : Graph :=
  { inputs := graph.inputs
    filters := graph.filters.map (Filter.shift slots stages)
    output := graph.output.shift slots stages
    warnings := graph.warnings }

def Bundle.shift (slots stages : Nat) (bundle : Bundle) : Bundle :=
  { inputs := bundle.inputs
    filters := bundle.filters.map (Filter.shift slots stages)
    outputs := bundle.outputs.map (Stream.shift slots stages)
    warnings := bundle.warnings }

/-- A label with its number moved on; what is no label stays. -/
def Piece.shift (slots stages : Nat) : Piece → Piece
  | .label name =>
      match Stream.read? name with
      | some stream => (stream.shift slots stages).piece
      | none => .label name
  | .word characters => .word characters

/-- A text with the number in each of its labels moved on. -/
def shiftText (slots stages : Nat) (text : String) : String :=
  match pieces? text with
  | some pieces =>
      String.ofList (pieces.flatMap fun piece => (piece.shift slots stages).characters)
  | none => text

@[simp] theorem Stream.shift_stage (slots stages number : Nat) :
    (Stream.stage number).shift slots stages = .stage (number + stages) := rfl

@[simp] theorem Piece.shift_word (slots stages : Nat) (characters : List Char) :
    (Piece.word characters).shift slots stages = .word characters := rfl

@[simp] theorem Stream.piece_shift (slots stages : Nat) (stream : Stream) :
    stream.piece.shift slots stages = (stream.shift slots stages).piece := by
  rw [Stream.piece, Piece.shift, Stream.read?_name]

/-- Moving labels on commutes with writing a filter. -/
theorem shiftText_text (slots stages : Nat) (filter : Filter) :
    shiftText slots stages filter.text = (filter.shift slots stages).text := by
  have moved : filter.pieces.map (Piece.shift slots stages) =
      (filter.shift slots stages).pieces := by
    simp [Filter.pieces, Filter.shift, Function.comp_def]
  rw [shiftText, pieces?_text]
  change String.ofList (filter.pieces.flatMap _) = _
  rw [← List.flatMap_map, moved, ← Filter.text_characters, String.ofList_toList]

/-! ## Moving compilations on -/

theorem Bundle.shift_cons (slots stages : Nat) (first : Graph) (others : Bundle) :
    (Bundle.cons first others).shift slots stages =
      .cons (first.shift slots stages) (others.shift slots stages) := by
  simp [Bundle.cons, Bundle.shift, Graph.shift]

theorem Bundle.shift_stacked (slots stages stage : Nat) (axis : Axis)
    (children : Bundle) :
    (children.stacked stage axis).shift slots stages =
      (children.shift slots stages).stacked (stage + stages) axis := by
  simp [Bundle.stacked, Graph.shift, Bundle.shift, Filter.shift, Stream.shift,
    Nat.add_right_comm]

theorem Graph.shift_overlaid (slots stages stage : Nat) (below layer : Graph)
    (position : Position) :
    (below.overlaid stage position layer).shift slots stages =
      (below.shift slots stages).overlaid (stage + stages) position
        (layer.shift slots stages) := by
  simp [Graph.overlaid, Graph.shift, Filter.shift, Stream.shift,
    Nat.add_right_comm]

@[simp] theorem Graph.shift_inputs (slots stages : Nat) (graph : Graph) :
    (graph.shift slots stages).inputs = graph.inputs := rfl

@[simp] theorem Graph.shift_filters_length (slots stages : Nat) (graph : Graph) :
    (graph.shift slots stages).filters.length = graph.filters.length :=
  List.length_map _

mutual

/-- A compilation from later slots and stages on is the same one moved on. -/
theorem Compiles.shift {slot stage : Nat} {node : Node} {graph : Graph}
    (compiles : Compiles slot stage node graph) (slots stages : Nat) :
    Compiles (slot + slots) (stage + stages) node (graph.shift slots stages) := by
  cases compiles with
  | resource => exact .resource
  | linear children =>
      rw [Bundle.shift_stacked]
      exact .linear (children.shift slots stages)
  | layered base layers =>
      exact .layered (base.shift slots stages) (layers.shift slots stages)

theorem CompilesAll.shift {slot stage : Nat} {nodes : List Node}
    {bundle : Bundle} (compiles : CompilesAll slot stage nodes bundle)
    (slots stages : Nat) :
    CompilesAll (slot + slots) (stage + stages) nodes
      (bundle.shift slots stages) := by
  cases compiles with
  | nil => exact .nil
  | cons first others =>
      have othersShifted := others.shift slots stages
      rw [Bundle.shift_cons]
      refine .cons (first.shift slots stages) ?_
      rwa [Graph.shift_inputs, Graph.shift_filters_length, Nat.add_right_comm,
        Nat.add_right_comm stage]

theorem Overlays.shift {slot stage : Nat} {layers : List Node}
    {below graph : Graph} (overlays : Overlays slot stage below layers graph)
    (slots stages : Nat) :
    Overlays (slot + slots) (stage + stages) (below.shift slots stages) layers
      (graph.shift slots stages) := by
  cases overlays with
  | done => exact .done
  | lay layer rest =>
      have layerShifted := layer.shift slots stages
      have restShifted := rest.shift slots stages
      rw [Graph.shift_overlaid] at restShifted
      refine .lay ?_ restShifted
      rwa [Graph.shift_inputs, Graph.shift_filters_length, Nat.add_right_comm,
        Nat.add_right_comm stage]

end

/-! ## Graphs of stacks -/

/-- The slots that the graphs before a position take up. -/
def slotsBefore (graphs : List Graph) (index : Nat) : Nat :=
  ((graphs.take index).flatMap Graph.inputs).length

def stagesBefore (graphs : List Graph) (index : Nat) : Nat :=
  ((graphs.take index).flatMap Graph.filters).length

/-- The texts of a linear stack's graph: those of its children, moved on, and
one that takes their outputs in order. -/
def linearTexts (axis : Axis) (graphs : List Graph) : List String :=
  (graphs.mapIdx fun index part =>
    part.texts.map (shiftText (slotsBefore graphs index) (stagesBefore graphs index))).flatten ++
  [String.join (graphs.mapIdx fun index part =>
      (part.output.shift (slotsBefore graphs index) (stagesBefore graphs index)).label) ++
    axis.name ++ "=inputs=" ++ toString graphs.length ++
    (Stream.stage (stagesBefore graphs graphs.length)).label]

/-- The composite that the layer at a position is laid over. -/
def compositeBefore (first : Graph) (graphs : List Graph) (index : Nat) : Stream :=
  if index = 1 then first.output else .stage (stagesBefore graphs index + index - 2)

/-- What the layer at a position after the base adds: its own texts, moved on
by what is before it and by the overlays among that, and one overlay at its
own offset. -/
def layerTexts (first : Graph) (graphs : List Graph) (index : Nat) (layer : Node)
    (part : Graph) : List String :=
  let slots := slotsBefore graphs index
  let stages := stagesBefore graphs index + index - 1
  part.texts.map (shiftText slots stages) ++
  [(compositeBefore first graphs index).label ++ (part.output.shift slots stages).label ++
    "overlay=" ++ layer.offset.x.text ++ ":" ++ layer.offset.y.text ++
    (Stream.stage (stages + part.filters.length)).label]

structure Graph.LinearStackOf (graph : Graph) (axis : Axis) (graphs : List Graph) :
    Prop where
  inputs : graph.inputs = graphs.flatMap Graph.inputs
  texts : graph.texts = linearTexts axis graphs
  output : graph.output = .stage (stagesBefore graphs graphs.length)
  warnings : graph.warnings = graphs.flatMap Graph.warnings ++
    if graphs.length = 1 then [.singleChild axis] else []

structure Graph.LayeredStackOf (graph : Graph) (layers : List Node) (first : Graph)
    (parts : List Graph) : Prop where
  inputs : graph.inputs = (first :: parts).flatMap Graph.inputs
  texts : graph.texts = first.texts ++
    ((layers.zip parts).mapIdx fun index (layer, part) =>
      layerTexts first (first :: parts) (index + 1) layer part).flatten
  output : graph.output = compositeBefore first (first :: parts) (parts.length + 1)
  warnings : graph.warnings = (first :: parts).flatMap Graph.warnings

/-! ## Linear stacks -/

/-- The graphs of neighbouring trees that compile on their own, joined. -/
def Bundle.joined (slots stages : Nat) : List Graph → Bundle
  | [] => ⟨[], [], [], []⟩
  | first :: rest =>
      .cons (first.shift slots stages)
        (.joined (slots + first.inputs.length) (stages + first.filters.length) rest)

theorem compilesAll_joined {nodes : List Node} {graphs : List Graph}
    (compiled : List.Forall₂ (Compiles 0 0) nodes graphs) (slots stages : Nat) :
    CompilesAll slots stages nodes (Bundle.joined slots stages graphs) := by
  induction compiled generalizing slots stages with
  | nil => exact .nil
  | @cons node first nodes graphs compiles _ induction =>
      have shifted := compiles.shift slots stages
      rw [Nat.zero_add, Nat.zero_add] at shifted
      refine .cons shifted ?_
      rw [Graph.shift_inputs, Graph.shift_filters_length]
      exact induction _ _

theorem slotsBefore_cons_succ (first : Graph) (rest : List Graph) (index : Nat) :
    slotsBefore (first :: rest) (index + 1) =
      first.inputs.length + slotsBefore rest index := by
  simp [slotsBefore]

theorem stagesBefore_cons_succ (first : Graph) (rest : List Graph) (index : Nat) :
    stagesBefore (first :: rest) (index + 1) =
      first.filters.length + stagesBefore rest index := by
  simp [stagesBefore]

theorem Graph.texts_shift (slots stages : Nat) (graph : Graph) :
    (graph.shift slots stages).texts = graph.texts.map (shiftText slots stages) := by
  simp [Graph.texts, Graph.shift, shiftText_text, Function.comp_def]

theorem joined_inputs (slots stages : Nat) (graphs : List Graph) :
    (Bundle.joined slots stages graphs).inputs = graphs.flatMap Graph.inputs := by
  induction graphs generalizing slots stages with
  | nil => rfl
  | cons first rest induction => simp [Bundle.joined, Bundle.cons, induction]

theorem joined_warnings (slots stages : Nat) (graphs : List Graph) :
    (Bundle.joined slots stages graphs).warnings =
      graphs.flatMap Graph.warnings := by
  induction graphs generalizing slots stages with
  | nil => rfl
  | cons first rest induction =>
      simp [Bundle.joined, Bundle.cons, induction, Graph.shift]

theorem joined_filters_length (slots stages : Nat) (graphs : List Graph) :
    (Bundle.joined slots stages graphs).filters.length =
      stagesBefore graphs graphs.length := by
  induction graphs generalizing slots stages with
  | nil => rfl
  | cons first rest induction =>
      simp [Bundle.joined, Bundle.cons, induction, stagesBefore_cons_succ]

theorem joined_outputs (slots stages : Nat) (graphs : List Graph) :
    (Bundle.joined slots stages graphs).outputs =
      graphs.mapIdx fun index part =>
        part.output.shift (slots + slotsBefore graphs index)
          (stages + stagesBefore graphs index) := by
  induction graphs generalizing slots stages with
  | nil => rfl
  | cons first rest induction =>
      rw [Bundle.joined, Bundle.cons, List.mapIdx_cons, induction]
      simp only [slotsBefore_cons_succ, stagesBefore_cons_succ, Nat.add_assoc]
      rfl

theorem joined_texts (slots stages : Nat) (graphs : List Graph) :
    (Bundle.joined slots stages graphs).filters.map Filter.text =
      (graphs.mapIdx fun index part =>
        part.texts.map (shiftText (slots + slotsBefore graphs index)
          (stages + stagesBefore graphs index))).flatten := by
  induction graphs generalizing slots stages with
  | nil => rfl
  | cons first rest induction =>
      rw [Bundle.joined, Bundle.cons, List.map_append, List.mapIdx_cons,
        List.flatten_cons, induction]
      simp only [slotsBefore_cons_succ, stagesBefore_cons_succ, Nat.add_assoc]
      rw [← Graph.texts_shift]
      rfl

theorem joined_linearStackOf (axis : Axis) (graphs : List Graph) :
    ((Bundle.joined 0 0 graphs).stacked 0 axis).LinearStackOf axis graphs := by
  have outputsLength : (Bundle.joined 0 0 graphs).outputs.length = graphs.length := by
    rw [joined_outputs, List.length_mapIdx]
  have labels : (Bundle.joined 0 0 graphs).outputs.map Stream.label =
      graphs.mapIdx fun index part =>
        (part.output.shift (slotsBefore graphs index) (stagesBefore graphs index)).label := by
    simp only [joined_outputs, List.mapIdx_eq_zipIdx_map, List.map_map, Nat.zero_add]
    rfl
  refine { inputs := ?_, texts := ?_, output := ?_, warnings := ?_ }
  · exact joined_inputs 0 0 graphs
  · rw [Graph.texts, Bundle.stacked, List.map_append, joined_texts, linearTexts]
    simp only [Nat.zero_add, List.map_cons, List.map_nil, Filter.text, labels,
      Operation.text, outputsLength, joined_filters_length, String.append_assoc]
  · rw [Bundle.stacked, joined_filters_length, Nat.zero_add]
  · rw [Bundle.stacked, joined_warnings, outputsLength]

/-! ## Layered stacks -/

/-- A composite with graphs of layers that compile on their own laid over it. -/
def Graph.layered (below : Graph) : List (Node × Graph) → Graph
  | [] => below
  | (layer, part) :: rest =>
      (below.overlaid 0 layer.offset
        (part.shift below.inputs.length below.filters.length)).layered rest

theorem overlays_layered {layers : List Node} {parts : List Graph}
    (compiled : List.Forall₂ (Compiles 0 0) layers parts) (below : Graph) :
    Overlays 0 0 below layers (below.layered (layers.zip parts)) := by
  induction compiled generalizing below with
  | nil => exact .done
  | cons compiles _ induction =>
      have shifted := compiles.shift below.inputs.length below.filters.length
      exact .lay shifted (induction _)

theorem slotsBefore_succ {graphs : List Graph} {index : Nat} {part : Graph}
    (found : graphs[index]? = some part) :
    slotsBefore graphs (index + 1) = slotsBefore graphs index + part.inputs.length := by
  simp [slotsBefore, List.take_add_one, found]

theorem stagesBefore_succ {graphs : List Graph} {index : Nat} {part : Graph}
    (found : graphs[index]? = some part) :
    stagesBefore graphs (index + 1) =
      stagesBefore graphs index + part.filters.length := by
  simp [stagesBefore, List.take_add_one, found]

/-- The composite below the layer at a position: everything before it, and an
overlay for each of that but the base. -/
structure CompositeAt (first : Graph) (graphs : List Graph) (index : Nat)
    (below : Graph) : Prop where
  slots : below.inputs.length = slotsBefore graphs index
  stages : below.filters.length = stagesBefore graphs index + index - 1
  output : below.output = compositeBefore first graphs index

theorem CompositeAt.overlaid {first : Graph} {graphs : List Graph} {index : Nat}
    {below part : Graph} (composite : CompositeAt first graphs index below)
    (positive : 0 < index) (found : graphs[index]? = some part)
    (position : Position) :
    CompositeAt first graphs (index + 1)
      (below.overlaid 0 position
        (part.shift below.inputs.length below.filters.length)) := by
  refine { slots := ?_, stages := ?_, output := ?_ }
  · rw [Graph.overlaid, List.length_append, Graph.shift_inputs, composite.slots,
      slotsBefore_succ found]
  · have count := composite.stages
    simp only [Graph.overlaid, List.length_append, Graph.shift_filters_length,
      List.length_singleton, stagesBefore_succ found]
    omega
  · have count := composite.stages
    have later : index + 1 ≠ 1 := by omega
    rw [compositeBefore, if_neg later, stagesBefore_succ found, Graph.overlaid,
      Graph.shift_filters_length, Stream.stage.injEq]
    omega

theorem Graph.texts_overlaid (stage : Nat) (below layer : Graph)
    (position : Position) :
    (below.overlaid stage position layer).texts =
      below.texts ++ (layer.texts ++
        [below.output.label ++ layer.output.label ++ "overlay=" ++
          position.x.text ++ ":" ++ position.y.text ++
          (Stream.stage (stage + below.filters.length + layer.filters.length)).label]) := by
  simp [Graph.texts, Graph.overlaid, Filter.text, Operation.text,
    String.append_assoc]

theorem CompositeAt.texts_overlaid {first : Graph} {graphs : List Graph}
    {index : Nat} {below : Graph}
    (composite : CompositeAt first graphs index below) (layer : Node)
    (part : Graph) :
    (below.overlaid 0 layer.offset
        (part.shift below.inputs.length below.filters.length)).texts =
      below.texts ++ layerTexts first graphs index layer part := by
  rw [Graph.texts_overlaid, Graph.texts_shift, Graph.shift_filters_length,
    composite.slots, composite.stages, composite.output, Nat.zero_add, layerTexts]
  rfl

/-- Each layer adds its texts at its position. -/
theorem CompositeAt.texts_layered {first : Graph} {graphs : List Graph}
    {index : Nat} {below : Graph} {layers : List Node} {parts : List Graph}
    (composite : CompositeAt first graphs index below) (positive : 0 < index)
    (remaining : graphs.drop index = parts) (sameLength : layers.length = parts.length) :
    (below.layered (layers.zip parts)).texts =
      below.texts ++ ((layers.zip parts).mapIdx fun offset (layer, part) =>
        layerTexts first graphs (index + offset) layer part).flatten ∧
    CompositeAt first graphs (index + parts.length)
      (below.layered (layers.zip parts)) := by
  -- Laying the first layer keeps `CompositeAt`, one position on, so the
  -- induction is on the layers still to come.
  induction parts generalizing index below layers with
  | nil => simpa [Graph.layered] using composite
  | cons part parts induction =>
      cases layers with
      | nil => cases sameLength
      | cons layer layers =>
          have found := getElem?_of_drop_eq_cons remaining
          have tail : graphs.drop (index + 1) = parts := by
            rw [← List.drop_drop, remaining, List.drop_one, List.tail_cons]
          have overlaid := composite.overlaid positive found layer.offset
          obtain ⟨texts, final⟩ := induction overlaid (Nat.succ_pos index) tail
            (Nat.succ.inj sameLength)
          constructor
          · rw [List.zip_cons_cons, Graph.layered, texts, composite.texts_overlaid,
              List.mapIdx_cons, List.flatten_cons, List.append_assoc]
            simp only [Nat.add_zero, Nat.add_assoc, Nat.add_comm 1]
          · rw [List.length_cons, Nat.add_comm parts.length, ← Nat.add_assoc]
            exact final

theorem layered_inputs (below : Graph) (laid : List (Node × Graph)) :
    (below.layered laid).inputs =
      below.inputs ++ laid.flatMap fun entry => entry.2.inputs := by
  induction laid generalizing below with
  | nil => simp [Graph.layered]
  | cons entry laid induction =>
      simp [Graph.layered, induction, Graph.overlaid]

theorem layered_warnings (below : Graph) (laid : List (Node × Graph)) :
    (below.layered laid).warnings =
      below.warnings ++ laid.flatMap fun entry => entry.2.warnings := by
  induction laid generalizing below with
  | nil => simp [Graph.layered]
  | cons entry laid induction =>
      simp [Graph.layered, induction, Graph.overlaid, Graph.shift]

theorem layered_layeredStackOf {layers : List Node} {parts : List Graph}
    (sameLength : layers.length = parts.length) (first : Graph) :
    (first.layered (layers.zip parts)).LayeredStackOf layers first parts := by
  have base : CompositeAt first (first :: parts) 1 first :=
    { slots := by simp [slotsBefore]
      stages := by simp [stagesBefore]
      output := rfl }
  have remaining : (first :: parts).drop 1 = parts := rfl
  obtain ⟨texts, final⟩ :=
    base.texts_layered Nat.zero_lt_one remaining sameLength
  have second : (layers.zip parts).map Prod.snd = parts :=
    List.map_snd_zip (Nat.le_of_eq sameLength.symm)
  refine { inputs := ?_, texts := ?_, output := ?_, warnings := ?_ }
  · rw [layered_inputs, List.flatMap_cons, ← List.flatMap_map Prod.snd, second]
  · simpa only [Nat.add_comm 1] using texts
  · rw [final.output, Nat.add_comm]
  · rw [layered_warnings, List.flatMap_cons, ← List.flatMap_map Prod.snd, second]

/-! ## Appending a layer -/

theorem layered_append (below : Graph) (front back : List (Node × Graph)) :
    below.layered (front ++ back) = (below.layered front).layered back := by
  induction front generalizing below with
  | nil => rfl
  | cons entry front induction => exact induction _

structure Graph.ExtendedBy (before after : Graph) : Prop where
  inputs : before.inputs <+: after.inputs
  texts : before.texts <+: after.texts
  warnings : before.warnings <+: after.warnings

theorem Graph.ExtendedBy.trans {before middle after : Graph}
    (first : before.ExtendedBy middle) (second : middle.ExtendedBy after) :
    before.ExtendedBy after :=
  { inputs := first.inputs.trans second.inputs
    texts := first.texts.trans second.texts
    warnings := first.warnings.trans second.warnings }

theorem overlaid_extendedBy (stage : Nat) (below layer : Graph)
    (position : Position) :
    below.ExtendedBy (below.overlaid stage position layer) := by
  constructor
  · exact List.prefix_append _ _
  · rw [Graph.texts_overlaid]
    exact List.prefix_append _ _
  · exact List.prefix_append _ _

theorem layered_extendedBy (below : Graph) (laid : List (Node × Graph)) :
    below.ExtendedBy (below.layered laid) := by
  induction laid generalizing below with
  | nil => exact ⟨List.prefix_rfl, List.prefix_rfl, List.prefix_rfl⟩
  | cons entry laid induction =>
      exact (overlaid_extendedBy _ _ _ _).trans (induction _)

/-! ## Stacks of trees that compile on their own -/

/-- The graphs of stacks are made of the graphs that their children have on
their own, moved on by what stands before them, and a further layer only adds
to the graph of a layered stack. -/
structure Compositional (base : Node) (layers : List Node) (first : Graph)
    (parts : List Graph) : Prop where
  linear : ∀ axis offset, ∃ graph,
    (Node.stack (.linear axis) (base :: layers) offset).compile = .ok graph ∧
      graph.LinearStackOf axis (first :: parts)
  layered : ∀ offset, ∃ graph,
    (Node.stack .layered (base :: layers) offset).compile = .ok graph ∧
      graph.LayeredStackOf layers first parts
  appended : ∀ offset layer part, layer.compile = .ok part → ∃ before after,
    (Node.stack .layered (base :: layers) offset).compile = .ok before ∧
      (Node.stack .layered (base :: layers ++ [layer]) offset).compile = .ok after ∧
        before.ExtendedBy after

theorem compile_layered_eq {base : Node} {layers : List Node} {first : Graph}
    {parts : List Graph} (baseCompiles : Compiles 0 0 base first)
    (layersCompile : List.Forall₂ (Compiles 0 0) layers parts) (offset : Position) :
    (Node.stack .layered (base :: layers) offset).compile =
      .ok (first.layered (layers.zip parts)) :=
  compile_eq_ok_iff.mpr (.layered baseCompiles (overlays_layered layersCompile first))

theorem compile_appended {base layer : Node} {layers : List Node}
    {first part : Graph} {parts : List Graph}
    (baseCompiles : Compiles 0 0 base first)
    (layersCompile : List.Forall₂ (Compiles 0 0) layers parts)
    (layerCompiles : Compiles 0 0 layer part) (offset : Position) :
    ∃ before after,
      (Node.stack .layered (base :: layers) offset).compile = .ok before ∧
        (Node.stack .layered (base :: layers ++ [layer]) offset).compile = .ok after ∧
          before.ExtendedBy after := by
  have allCompile :
      List.Forall₂ (Compiles 0 0) (layers ++ [layer]) (parts ++ [part]) :=
    List.rel_append layersCompile (.cons layerCompiles .nil)
  have zipped : (layers ++ [layer]).zip (parts ++ [part]) =
      layers.zip parts ++ [(layer, part)] :=
    List.zip_append layersCompile.length_eq
  refine ⟨first.layered (layers.zip parts),
    first.layered ((layers ++ [layer]).zip (parts ++ [part])),
    compile_layered_eq baseCompiles layersCompile offset,
    compile_layered_eq baseCompiles allCompile offset, ?_⟩
  rw [zipped, layered_append]
  exact layered_extendedBy _ _

theorem compile_compositional (base : Node) (layers : List Node) (first : Graph)
    (parts : List Graph)
    (compiled : List.Forall₂ (fun child graph => child.compile = .ok graph)
      (base :: layers) (first :: parts)) :
    Compositional base layers first parts := by
  have derived : List.Forall₂ (Compiles 0 0) (base :: layers) (first :: parts) :=
    compiled.imp fun _ _ success => compile_eq_ok_iff.mp success
  obtain ⟨baseCompiles, layersCompile⟩ := List.forall₂_cons.mp derived
  constructor
  · intro axis offset
    refine ⟨_, ?_, joined_linearStackOf axis (first :: parts)⟩
    exact compile_eq_ok_iff.mpr (.linear (compilesAll_joined derived 0 0))
  · intro offset
    exact ⟨_, compile_layered_eq baseCompiles layersCompile offset,
      layered_layeredStackOf layersCompile.length_eq first⟩
  · intro offset layer part success
    exact compile_appended baseCompiles layersCompile
      (compile_eq_ok_iff.mp success) offset

def column : Node :=
  vstack [.node (resource "top.mp4"), .node (resource "bottom.mp4")]

def columnGraph : Graph :=
  { inputs := ["top.mp4", "bottom.mp4"]
    filters := [⟨[.input 0, .input 1], .stack .vertical 2, 0⟩]
    output := .stage 0
    warnings := [] }

/-- One column on another. -/
theorem columns_compositional :
    List.Forall₂ (fun child graph => child.compile = .ok graph)
        [column, column] [columnGraph, columnGraph] ∧
      Compositional column [column] columnGraph [columnGraph] :=
  ⟨.cons rfl (.cons rfl .nil),
    compile_compositional column [column] columnGraph [columnGraph]
      (.cons rfl (.cons rfl .nil))⟩

end Montage
