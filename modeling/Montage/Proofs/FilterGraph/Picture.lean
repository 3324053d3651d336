import Montage.Proofs.FilterGraph.Linearity

/-!
# Pictures

A tree denotes a picture: its media files by their place among all of them,
side by side, one below another, or on top of each other at given places.  An
argument list denotes a picture as well, by running its expressions in order.
The arguments of a compiled tree denote the picture of the tree.
-/

namespace Montage

inductive Picture where
  | leaf (slot : Nat) (path : String)
  | stack (axis : Axis) (parts : List Picture)
  | overlaid (below above : Picture) (x y : String)
deriving Repr, Inhabited

/-! ## The picture of a tree -/

mutual

/-- The picture of a tree with `slot` media files to its left.  A layered
stack without children has none; any picture stands for it. -/
def Node.picture (slot : Nat) : Node → Picture
  | .resource path _ => .leaf slot path
  | .stack (.linear axis) children _ => .stack axis (pictures slot children)
  | .stack .layered [] _ => default
  | .stack .layered (base :: layers) _ =>
      covered (slot + base.paths.length) (base.picture slot) layers

def pictures (slot : Nat) : List Node → List Picture
  | [] => []
  | node :: rest => node.picture slot :: pictures (slot + node.paths.length) rest

/-- A composite with layers on it, each at its own offset. -/
def covered (slot : Nat) (below : Picture) : List Node → Picture
  | [] => below
  | layer :: rest =>
      covered (slot + layer.paths.length)
        (.overlaid below (layer.picture slot) layer.offset.x.text layer.offset.y.text)
        rest

end

/-! ## The picture of an argument list -/

/-- The pictures that stages have been bound to, the latest first. -/
abbrev Bindings := List (Nat × Picture)

/-- The picture that a stream carries: an input shows its path, a stage what
an earlier expression has bound it to. -/
def Stream.value? (paths : List String) (bindings : Bindings) :
    Stream → Option Picture
  | .input slot => paths[slot]?.map (.leaf slot)
  | .stage number => bindings.lookup number

/-- What an expression makes of the pictures it consumes, if it is given as
many as it asks for. -/
def Action.apply? : Action → List Picture → Option Picture
  | .stack axis count, parts =>
      if parts.length = count then some (.stack axis parts) else none
  | .overlay x y, [below, above] => some (.overlaid below above x y)
  | .pass, [picture] => some picture
  | _, _ => none

/-- Binds the stage that an expression provides to what it makes. -/
def step? (paths : List String) (bindings : Bindings) (expression : Expression) :
    Option Bindings := do
  let parts ← expression.sources.mapM (Stream.value? paths bindings)
  let picture ← expression.action.apply? parts
  match expression.target with
  | .stage number => some ((number, picture) :: bindings)
  | .input _ => none

def Script.picture? (script : Script) : Option Picture := do
  let bindings ← script.expressions.foldlM (step? script.inputs) []
  script.mapped.value? script.inputs bindings

def pictureOf? (arguments : List String) : Option Picture := do
  let script ← Script.read? arguments
  script.picture?

/-! ## Running filters -/

theorem mapM_value?_congr {paths : List String} {first second : Bindings}
    {streams : List Stream}
    (same : ∀ stream ∈ streams, stream.value? paths first = stream.value? paths second) :
    streams.mapM (Stream.value? paths first) =
      streams.mapM (Stream.value? paths second) := by
  induction streams with
  | nil => rfl
  | cons stream streams induction =>
      obtain ⟨head, tail⟩ := List.forall_mem_cons.mp same
      rw [List.mapM_cons, List.mapM_cons, head, induction tail]

theorem Stream.Below.mono {stream : Stream} {number later : Nat}
    (below : stream.Below number) (le : number ≤ later) : stream.Below later := by
  cases stream with
  | input slot => trivial
  | stage earlier => exact Nat.lt_of_lt_of_le below le

/-- Binding a stage does not change what was there before it. -/
theorem value?_bind_of_below {paths : List String} {bindings : Bindings}
    {number : Nat} {stream : Stream} (picture : Picture) (below : stream.Below number) :
    stream.value? paths ((number, picture) :: bindings) =
      stream.value? paths bindings := by
  cases stream with
  | input slot => rfl
  | stage earlier =>
      have different : (earlier == number) = false := by
        simpa using Nat.ne_of_lt below
      simp [Stream.value?, List.lookup_cons, different]

/-- Running the filters puts the pictures on the streams, and leaves alone
what was there before the given stage. -/
def Shows (paths : List String) (stage : Nat) (filters : List Filter)
    (streams : List Stream) (pictures : List Picture) : Prop :=
  ∀ bindings, ∃ after,
    (filters.map Filter.expression).foldlM (step? paths) bindings = some after ∧
    streams.mapM (Stream.value? paths after) = some pictures ∧
    ∀ stream : Stream, stream.Below stage →
      stream.value? paths after = stream.value? paths bindings

namespace Shows

variable {paths : List String} {stage : Nat}

theorem nothing : Shows paths stage [] [] [] :=
  fun bindings => ⟨bindings, rfl, rfl, fun _ _ => rfl⟩

theorem leaf {slot : Nat} {path : String} (supplied : paths[slot]? = some path) :
    Shows paths stage [] [.input slot] [.leaf slot path] := by
  intro bindings
  refine ⟨bindings, rfl, ?_, fun _ _ => rfl⟩
  simp [Stream.value?, supplied]

theorem append {frontFilters backFilters : List Filter}
    {front back : List Stream} {frontPictures backPictures : List Picture}
    (frontShown : Shows paths stage frontFilters front frontPictures)
    (backShown : Shows paths (stage + frontFilters.length) backFilters back
      backPictures)
    (below : ∀ stream ∈ front, stream.Below (stage + frontFilters.length)) :
    Shows paths stage (frontFilters ++ backFilters) (front ++ back)
      (frontPictures ++ backPictures) := by
  intro bindings
  obtain ⟨middle, frontRun, frontValues, frontFrame⟩ := frontShown bindings
  obtain ⟨after, backRun, backValues, backFrame⟩ := backShown middle
  -- The back binds later stages only, so the front's streams still show theirs.
  have frontKept : front.mapM (Stream.value? paths after) = some frontPictures := by
    rw [← frontValues]
    exact mapM_value?_congr fun stream member => backFrame stream (below stream member)
  refine ⟨after, ?_, ?_, ?_⟩
  · rw [List.map_append, List.foldlM_append, frontRun]
    exact backRun
  · rw [List.mapM_append, frontKept, backValues]
    rfl
  · intro stream early
    rw [backFrame stream (early.mono (Nat.le_add_right _ _)), frontFrame stream early]

theorem emit {filters : List Filter} {streams : List Stream}
    {pictures : List Picture} {picture : Picture}
    (shown : Shows paths stage filters streams pictures) (operation : Operation)
    (applied : operation.action.apply? pictures = some picture) :
    Shows paths stage
      (filters ++ [⟨streams, operation, stage + filters.length⟩])
      [.stage (stage + filters.length)] [picture] := by
  intro bindings
  obtain ⟨middle, filtersRun, values, frame⟩ := shown bindings
  let number := stage + filters.length
  refine ⟨(number, picture) :: middle, ?_, ?_, ?_⟩
  · rw [List.map_append, List.foldlM_append, filtersRun]
    simp [step?, Filter.expression, values, applied, number]
  · simp [Stream.value?, number]
  · intro stream early
    rw [← frame stream early]
    exact value?_bind_of_below _ (early.mono (Nat.le_add_right _ _))

theorem overlaid {inputCount slot : Nat} {below layer : Graph}
    {belowPicture layerPicture : Picture}
    (belowShown : Shows paths stage below.filters [below.output] [belowPicture])
    (layerShown : Shows paths (stage + below.filters.length) layer.filters
      [layer.output] [layerPicture])
    (accounted : Accounted slot stage inputCount below.filters [below.output])
    (position : Position) :
    Shows paths stage (below.overlaid stage position layer).filters
      [(below.overlaid stage position layer).output]
      [.overlaid belowPicture layerPicture position.x.text position.y.text] := by
  have joined := belowShown.append layerShown accounted.available_below
  have laid := joined.emit (.overlay position) rfl
  rw [List.length_append, ← Nat.add_assoc] at laid
  exact laid

end Shows

/-! ## Compiled trees -/

/-- The inputs stand among the paths from a slot on. -/
def SuppliedFrom (slot : Nat) (inputs paths : List String) : Prop :=
  inputs <+: paths.drop slot

theorem SuppliedFrom.front {slot : Nat} {front back paths : List String}
    (supplied : SuppliedFrom slot (front ++ back) paths) :
    SuppliedFrom slot front paths :=
  (List.prefix_append front back).trans supplied

theorem SuppliedFrom.back {slot : Nat} {front back paths : List String}
    (supplied : SuppliedFrom slot (front ++ back) paths) :
    SuppliedFrom (slot + front.length) back paths := by
  obtain ⟨others, equality⟩ := supplied
  refine ⟨others, ?_⟩
  rw [← List.drop_drop, ← equality, List.append_assoc, List.drop_left]

theorem pictures_length (slot : Nat) (nodes : List Node) :
    (pictures slot nodes).length = nodes.length := by
  induction nodes generalizing slot with
  | nil => rfl
  | cons node rest induction => simp [pictures, induction]

mutual

/-- The filters of a compiled tree put its picture on the output. -/
theorem Compiles.shows {slot stage : Nat} {node : Node} {graph : Graph}
    {paths : List String} (compiles : Compiles slot stage node graph)
    (supplied : SuppliedFrom slot graph.inputs paths) :
    Shows paths stage graph.filters [graph.output] [node.picture slot] := by
  cases compiles with
  | @resource _ _ path offset =>
      have found : paths[slot]? = some path := by
        obtain ⟨others, equality⟩ := supplied
        exact getElem?_of_drop_eq_cons equality.symm
      exact .leaf found
  | @linear _ _ axis first rest _ children derivation =>
      have shown := derivation.shows supplied
      refine shown.emit _ ?_
      have counted : (pictures slot (first :: rest)).length = children.outputs.length := by
        rw [pictures_length, derivation.outputs_length]
      simp [Operation.action, Action.apply?, counted, Node.picture]
  | @layered _ _ base layers _ below _ baseDerivation layersDerivation =>
      have belowSupplied : SuppliedFrom slot below.inputs paths := by
        rw [layersDerivation.inputs_eq] at supplied
        exact supplied.front
      have shown := layersDerivation.shows supplied baseDerivation.accounted
        (baseDerivation.shows belowSupplied)
      rwa [baseDerivation.inputs_eq] at shown

theorem CompilesAll.shows {slot stage : Nat} {nodes : List Node} {bundle : Bundle}
    {paths : List String} (compiles : CompilesAll slot stage nodes bundle)
    (supplied : SuppliedFrom slot bundle.inputs paths) :
    Shows paths stage bundle.filters bundle.outputs (pictures slot nodes) := by
  cases compiles with
  | nil => exact .nothing
  | @cons _ _ node rest first others firstDerivation othersDerivation =>
      have firstShown := firstDerivation.shows supplied.front
      have othersShown := othersDerivation.shows supplied.back
      rw [firstDerivation.inputs_eq] at othersShown
      exact firstShown.append othersShown firstDerivation.accounted.available_below

/-- Layers go on top of a composite that is already shown. -/
theorem Overlays.shows {slot stage : Nat} {layers : List Node}
    {below graph : Graph} {paths : List String} {picture : Picture}
    (overlays : Overlays slot stage below layers graph)
    (supplied : SuppliedFrom slot graph.inputs paths)
    (accounted :
      Accounted slot stage below.inputs.length below.filters [below.output])
    (shown : Shows paths stage below.filters [below.output] [picture]) :
    Shows paths stage graph.filters [graph.output]
      [covered (slot + below.inputs.length) picture layers] := by
  cases overlays with
  | done => exact shown
  | @lay _ _ node rest _ layer _ layerDerivation restDerivation =>
      have joinedSupplied : SuppliedFrom slot (below.inputs ++ layer.inputs) paths := by
        rw [restDerivation.inputs_eq] at supplied
        exact supplied.front
      have layerShown := layerDerivation.shows joinedSupplied.back
      have laid := shown.overlaid layerShown accounted node.offset
      have restShown := restDerivation.shows supplied
        (accounted.overlaid layerDerivation.accounted node.offset) laid
      have nextSlot : slot + (below.overlaid stage node.offset layer).inputs.length =
          slot + below.inputs.length + node.paths.length := by
        rw [Graph.overlaid, List.length_append, layerDerivation.inputs_eq,
          Nat.add_assoc]
      rw [nextSlot] at restShown
      exact restShown

end

/-- The picture on the final stream of filters, if they are a whole graph. -/
theorem picture?_of_shows {paths : List String} {filters : List Filter}
    {output : Stream} {picture : Picture}
    (shown : Shows paths 0 filters [output] [picture]) :
    Script.picture? ⟨paths, filters.map Filter.expression, output⟩ = some picture := by
  obtain ⟨after, filtersRun, value, _⟩ := shown []
  have found : output.value? paths after = some picture := by
    cases carried : output.value? paths after with
    | none => simp [carried] at value
    | some other => simpa [carried] using value
  simp [Script.picture?, filtersRun, found]

theorem Compiles.completed_shows {root : Node} {graph : Graph}
    (compiles : Compiles 0 0 root graph) :
    Shows graph.inputs 0 graph.completed.filters [graph.completed.output]
      [root.picture 0] := by
  have supplied : SuppliedFrom 0 graph.inputs graph.inputs := List.prefix_refl _
  have shown := compiles.shows supplied
  by_cases empty : graph.filters = []
  · rw [empty] at shown
    have passed := shown.emit .pass rfl
    simpa [Graph.completed, empty] using passed
  · simpa [Graph.completed, empty] using shown

theorem Compiles.pictureOf?_arguments {root : Node} {graph : Graph}
    (compiles : Compiles 0 0 root graph) :
    pictureOf? graph.arguments = some (root.picture 0) := by
  have shown := compiles.completed_shows
  rw [← Graph.completed_inputs] at shown
  rw [pictureOf?, Script.read?_arguments]
  exact picture?_of_shows shown

/-- A tree without empty stacks compiles, and its arguments, read as text and
run in order, denote its picture. -/
theorem arguments_picture (root : Node) (populated : root.Populated) :
    ∃ graph, root.compile = .ok graph ∧
      pictureOf? graph.arguments = some (root.picture 0) := by
  obtain ⟨graph, compiles⟩ := populated.compiles 0 0
  exact ⟨graph, compile_eq_ok_iff.mpr compiles, compiles.pictureOf?_arguments⟩

theorem nestedLayers_arguments_picture :
    nestedLayers.Populated ∧
      ∃ graph, nestedLayers.compile = .ok graph ∧
        pictureOf? graph.arguments = some (nestedLayers.picture 0) :=
  ⟨by decide, arguments_picture nestedLayers (by decide)⟩

end Montage
