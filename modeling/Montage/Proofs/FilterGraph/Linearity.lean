import Montage.Proofs.FilterGraph.Derivation
import Montage.Proofs.FilterGraph.Script
import Mathlib.Data.List.Nodup

/-!
# Every stream is used once

A filter graph can be run if each filter consumes what is there before it and
every stream but the final one is consumed exactly once.  The invariant behind
this counts streams: those that the filters consume, together with those that
are still available, are the inputs and the stages taken so far.
-/

namespace Montage

/-! ## Streams in use -/

def slotsFrom (first count : Nat) : List Stream :=
  (List.range' first count).map .input

def stagesFrom (first count : Nat) : List Stream :=
  (List.range' first count).map .stage

theorem slotsFrom_add (first front back : Nat) :
    slotsFrom first (front + back) =
      slotsFrom first front ++ slotsFrom (first + front) back := by
  rw [slotsFrom, slotsFrom, slotsFrom, ← List.map_append, List.range'_append_1]

theorem stagesFrom_add (first front back : Nat) :
    stagesFrom first (front + back) =
      stagesFrom first front ++ stagesFrom (first + front) back := by
  rw [stagesFrom, stagesFrom, stagesFrom, ← List.map_append, List.range'_append_1]

theorem mem_slotsFrom {first count slot : Nat} :
    .input slot ∈ slotsFrom first count ↔ first ≤ slot ∧ slot < first + count := by
  simp [slotsFrom, List.mem_range'_1]

theorem mem_stagesFrom {first count number : Nat} :
    .stage number ∈ stagesFrom first count ↔
      first ≤ number ∧ number < first + count := by
  simp [stagesFrom, List.mem_range'_1]

/-- The two middle groups of four change places. -/
theorem perm_append_interchange {α : Type} (first second third fourth : List α) :
    ((first ++ second) ++ (third ++ fourth)).Perm
      ((first ++ third) ++ (second ++ fourth)) := by
  rw [List.append_assoc, List.append_assoc]
  exact (List.perm_append_comm_assoc second third fourth).append_left first

/-- A stream that is there before the stage with the given number. -/
def Stream.Below (number : Nat) : Stream → Prop
  | .input _ => True
  | .stage earlier => earlier < number

def Operation.arity : Operation → Nat
  | .stack _ count => count
  | .overlay _ => 2
  | .pass => 1

/-- Filters from a first slot and a first stage on, and the streams that they
leave available. -/
structure Accounted (slot stage inputCount : Nat) (filters : List Filter)
    (available : List Stream) : Prop where
  targets : filters.map Filter.target = List.range' stage filters.length
  consumption :
    (filters.flatMap Filter.sources ++ available).Perm
      (slotsFrom slot inputCount ++ stagesFrom stage filters.length)
  ordered : ∀ filter ∈ filters, ∀ source ∈ filter.sources,
    source.Below filter.target
  arities : ∀ filter ∈ filters, filter.operation.arity = filter.sources.length

namespace Accounted

theorem leaf (slot stage : Nat) : Accounted slot stage 1 [] [.input slot] :=
  { targets := rfl
    consumption := .refl _
    ordered := by simp
    arities := by simp }

theorem nothing (slot stage : Nat) : Accounted slot stage 0 [] [] :=
  { targets := rfl
    consumption := .refl _
    ordered := by simp
    arities := by simp }

/-- Neighbouring groups of filters share no stream. -/
theorem append {slot stage frontCount backCount : Nat}
    {frontFilters backFilters : List Filter} {front back : List Stream}
    (frontAccounted : Accounted slot stage frontCount frontFilters front)
    (backAccounted : Accounted (slot + frontCount) (stage + frontFilters.length)
      backCount backFilters back) :
    Accounted slot stage (frontCount + backCount)
      (frontFilters ++ backFilters) (front ++ back) := by
  refine { targets := ?_, consumption := ?_, ordered := ?_, arities := ?_ }
  · rw [List.map_append, frontAccounted.targets, backAccounted.targets,
      List.length_append, List.range'_append_1]
  · have joined := frontAccounted.consumption.append backAccounted.consumption
    rw [List.flatMap_append, slotsFrom_add, List.length_append, stagesFrom_add]
    exact ((perm_append_interchange _ _ _ _).trans joined).trans
      (perm_append_interchange _ _ _ _)
  · intro filter member
    rcases List.mem_append.mp member with inFront | inBack
    · exact frontAccounted.ordered filter inFront
    · exact backAccounted.ordered filter inBack
  · intro filter member
    rcases List.mem_append.mp member with inFront | inBack
    · exact frontAccounted.arities filter inFront
    · exact backAccounted.arities filter inBack

theorem mem_streams {slot stage inputCount : Nat} {filters : List Filter}
    {available : List Stream} {stream : Stream}
    (accounted : Accounted slot stage inputCount filters available)
    (member : stream ∈ filters.flatMap Filter.sources ++ available) :
    (∃ number, slot ≤ number ∧ number < slot + inputCount ∧
        stream = .input number) ∨
      (∃ number, stage ≤ number ∧ number < stage + filters.length ∧
        stream = .stage number) := by
  have listed := accounted.consumption.mem_iff.mp member
  simp only [slotsFrom, stagesFrom, List.mem_append, List.mem_map,
    List.mem_range'_1] at listed
  rcases listed with ⟨number, ⟨lower, upper⟩, equality⟩ |
      ⟨number, ⟨lower, upper⟩, equality⟩
  · exact .inl ⟨number, lower, upper, equality.symm⟩
  · exact .inr ⟨number, lower, upper, equality.symm⟩

theorem available_below {slot stage inputCount : Nat} {filters : List Filter}
    {available : List Stream}
    (accounted : Accounted slot stage inputCount filters available) :
    ∀ stream ∈ available, stream.Below (stage + filters.length) := by
  intro stream member
  rcases accounted.mem_streams (List.mem_append_right _ member) with
    ⟨number, _, _, rfl⟩ | ⟨number, _, upper, rfl⟩
  · trivial
  · exact upper

/-- A filter that takes everything available leaves only its own stage. -/
theorem emit {slot stage inputCount : Nat} {filters : List Filter}
    {available : List Stream}
    (accounted : Accounted slot stage inputCount filters available)
    (operation : Operation) (arity : operation.arity = available.length) :
    Accounted slot stage inputCount
      (filters ++ [⟨available, operation, stage + filters.length⟩])
      [.stage (stage + filters.length)] := by
  refine { targets := ?_, consumption := ?_, ordered := ?_, arities := ?_ }
  · rw [List.map_append, accounted.targets, List.length_append,
      ← List.range'_append_1]
    rfl
  · have extended := accounted.consumption.append_right
      [Stream.stage (stage + filters.length)]
    rw [List.length_append, stagesFrom_add, List.flatMap_append,
      List.flatMap_singleton, ← List.append_assoc]
    exact extended
  · intro filter member
    rcases List.mem_append.mp member with earlier | last
    · exact accounted.ordered filter earlier
    · rw [List.mem_singleton.mp last]
      exact accounted.available_below
  · intro filter member
    rcases List.mem_append.mp member with earlier | last
    · exact accounted.arities filter earlier
    · rw [List.mem_singleton.mp last]
      exact arity

theorem overlaid {slot stage : Nat} {below layer : Graph}
    (belowAccounted :
      Accounted slot stage below.inputs.length below.filters [below.output])
    (layerAccounted : Accounted (slot + below.inputs.length)
      (stage + below.filters.length) layer.inputs.length layer.filters
      [layer.output])
    (position : Position) :
    Accounted slot stage (below.overlaid stage position layer).inputs.length
      (below.overlaid stage position layer).filters
      [(below.overlaid stage position layer).output] := by
  have joined := belowAccounted.append layerAccounted
  have laid := joined.emit (.overlay position) rfl
  have inputCount : (below.inputs ++ layer.inputs).length =
      below.inputs.length + layer.inputs.length := List.length_append
  rw [List.length_append, ← Nat.add_assoc, ← inputCount] at laid
  exact laid

end Accounted

mutual

/-- Every compilation accounts for its streams. -/
theorem Compiles.accounted {slot stage : Nat} {node : Node} {graph : Graph}
    (compiles : Compiles slot stage node graph) :
    Accounted slot stage graph.inputs.length graph.filters [graph.output] := by
  cases compiles with
  | resource => exact .leaf slot stage
  | linear children => exact children.accounted.emit _ rfl
  | layered base layers => exact layers.accounted base.accounted

theorem CompilesAll.accounted {slot stage : Nat} {nodes : List Node}
    {bundle : Bundle} (compiles : CompilesAll slot stage nodes bundle) :
    Accounted slot stage bundle.inputs.length bundle.filters bundle.outputs := by
  cases compiles with
  | nil => exact .nothing slot stage
  | cons first others =>
      have joined := first.accounted.append others.accounted
      rw [← List.length_append] at joined
      exact joined

theorem Overlays.accounted {slot stage : Nat} {layers : List Node}
    {below graph : Graph} (overlays : Overlays slot stage below layers graph)
    (belowAccounted :
      Accounted slot stage below.inputs.length below.filters [below.output]) :
    Accounted slot stage graph.inputs.length graph.filters [graph.output] := by
  cases overlays with
  | done => exact belowAccounted
  | lay layer rest => exact rest.accounted (belowAccounted.overlaid layer.accounted _)

end

/-! ## Counting -/

theorem streams_nodup (slot slots stage stages : Nat) :
    (slotsFrom slot slots ++ stagesFrom stage stages).Nodup := by
  have inputs : (slotsFrom slot slots).Nodup :=
    List.Nodup.map (fun _ _ equality => Stream.input.inj equality) List.nodup_range'
  have outputs : (stagesFrom stage stages).Nodup :=
    List.Nodup.map (fun _ _ equality => Stream.stage.inj equality) List.nodup_range'
  refine List.nodup_append.mpr ⟨inputs, outputs, ?_⟩
  intro input inputMember output outputMember equality
  obtain ⟨number, _, rfl⟩ := List.mem_map.mp inputMember
  obtain ⟨other, _, rfl⟩ := List.mem_map.mp outputMember
  cases equality

namespace Accounted

variable {slot stage inputCount : Nat} {filters : List Filter}
  {available : List Stream}

/-- A stream is consumed or available exactly once, if it is one of those that
the filters take or provide. -/
theorem count_eq_one {stream : Stream}
    (accounted : Accounted slot stage inputCount filters available)
    (member : stream ∈ slotsFrom slot inputCount ++ stagesFrom stage filters.length) :
    (filters.flatMap Filter.sources).count stream + available.count stream = 1 := by
  rw [← List.count_append, accounted.consumption.count_eq]
  exact List.count_eq_one_of_mem (streams_nodup _ _ _ _) member

theorem target_eq {index : Nat} {filter : Filter}
    (accounted : Accounted slot stage inputCount filters available)
    (found : filters[index]? = some filter) : filter.target = stage + index := by
  have listed : (filters.map Filter.target)[index]? = some filter.target := by
    rw [List.getElem?_map, found, Option.map_some]
  have inRange : index < filters.length := (List.getElem?_eq_some_iff.mp found).1
  rw [accounted.targets, List.getElem?_range' inRange, Nat.one_mul,
    Option.some.injEq] at listed
  exact listed.symm

/-- The stream left over by filters is the stage of the last one, for no
filter comes after that to consume it. -/
theorem output_eq {output : Stream}
    (accounted : Accounted slot stage inputCount filters [output])
    (nonempty : filters ≠ []) :
    output = .stage (stage + filters.length - 1) := by
  let last := Stream.stage (stage + filters.length - 1)
  have positive : 0 < filters.length := List.length_pos_iff.mpr nonempty
  have provided : last ∈ slotsFrom slot inputCount ++ stagesFrom stage filters.length := by
    refine List.mem_append_right _ (mem_stagesFrom.mpr ?_)
    omega
  -- A filter that consumed the last stage would provide a later one.
  have used := accounted.consumption.mem_iff.mpr provided
  rcases List.mem_append.mp used with consumed | left
  · obtain ⟨filter, member, source⟩ := List.mem_flatMap.mp consumed
    obtain ⟨index, found⟩ := List.mem_iff_getElem?.mp member
    have inRange : index < filters.length := (List.getElem?_eq_some_iff.mp found).1
    have below : stage + filters.length - 1 < filter.target :=
      accounted.ordered filter member last source
    rw [accounted.target_eq found] at below
    omega
  · exact (List.mem_singleton.mp left).symm

theorem source_before {index : Nat} {filter : Filter} {stream : Stream}
    (accounted : Accounted 0 0 inputCount filters available)
    (found : filters[index]? = some filter) (source : stream ∈ filter.sources) :
    (∃ number, number < inputCount ∧ stream = .input number) ∨
      (∃ number, number < index ∧ stream = .stage number) := by
  have member := List.mem_of_getElem? found
  have listed : stream ∈ filters.flatMap Filter.sources ++ available :=
    List.mem_append_left _ (List.mem_flatMap.mpr ⟨filter, member, source⟩)
  rcases accounted.mem_streams listed with
    ⟨number, _, upper, rfl⟩ | ⟨number, _, _, rfl⟩
  · exact .inl ⟨number, by omega, rfl⟩
  · have below : number < filter.target := accounted.ordered filter member _ source
    rw [accounted.target_eq found, Nat.zero_add] at below
    exact .inr ⟨number, below, rfl⟩

theorem consumed_once {stream output : Stream}
    (accounted : Accounted slot stage inputCount filters [output])
    (member : stream ∈ slotsFrom slot inputCount ++ stagesFrom stage filters.length)
    (different : stream ≠ output) :
    (filters.flatMap Filter.sources).count stream = 1 := by
  have absent : [output].count stream = 0 :=
    List.count_eq_zero_of_not_mem (by simpa using different)
  have once := accounted.count_eq_one member
  rwa [absent, Nat.add_zero] at once

theorem output_unconsumed {output : Stream}
    (accounted : Accounted slot stage inputCount filters [output])
    (nonempty : filters ≠ []) :
    output ∉ filters.flatMap Filter.sources := by
  have positive : 0 < filters.length := List.length_pos_iff.mpr nonempty
  have provided : output ∈
      slotsFrom slot inputCount ++ stagesFrom stage filters.length := by
    rw [accounted.output_eq nonempty]
    exact List.mem_append_right _ (mem_stagesFrom.mpr (by omega))
  have once := accounted.count_eq_one provided
  rw [List.count_singleton_self] at once
  exact List.count_eq_zero.mp (by omega)

theorem consumed_later {number : Nat} {output : Stream}
    (accounted : Accounted 0 0 inputCount filters [output])
    (below : number < filters.length) (different : .stage number ≠ output) :
    ∃ index filter, number < index ∧ filters[index]? = some filter ∧
      .stage number ∈ filter.sources := by
  have provided : Stream.stage number ∈
      slotsFrom 0 inputCount ++ stagesFrom 0 filters.length :=
    List.mem_append_right _ (mem_stagesFrom.mpr (by omega))
  have once := accounted.consumed_once provided different
  have used : Stream.stage number ∈ filters.flatMap Filter.sources :=
    List.count_pos_iff.mp (by omega)
  obtain ⟨filter, member, source⟩ := List.mem_flatMap.mp used
  obtain ⟨index, found⟩ := List.mem_iff_getElem?.mp member
  refine ⟨index, filter, ?_, found, source⟩
  rcases accounted.source_before found source with
    ⟨_, _, equality⟩ | ⟨earlier, before, equality⟩
  · cases equality
  · rwa [Stream.stage.inj equality]

end Accounted

/-! ## Scripts -/

def Action.arity : Action → Nat
  | .stack _ count => count
  | .overlay _ _ => 2
  | .pass => 1

/-- Every label that is consumed, as often as it is. -/
def Script.consumed (script : Script) : List Stream :=
  script.expressions.flatMap Expression.sources

/-- Expressions provide the stages in order and take what is there before
them.  Every input, and every stage but the mapped one, is taken once. -/
structure Script.Linear (script : Script) : Prop where
  target : ∀ (index : Nat) (expression : Expression),
    script.expressions[index]? = some expression → expression.target = .stage index
  distinct : (script.expressions.map Expression.target).Nodup
  source : ∀ (index : Nat) (expression : Expression),
    script.expressions[index]? = some expression → ∀ stream ∈ expression.sources,
      (∃ slot, slot < script.inputs.length ∧ stream = .input slot) ∨
        (∃ number, number < index ∧ stream = .stage number)
  arity : ∀ expression ∈ script.expressions,
    expression.action.arity = expression.sources.length
  inputOnce : ∀ slot, slot < script.inputs.length →
    script.consumed.count (.input slot) = 1
  stageOnce : ∀ number, number < script.expressions.length →
    .stage number ≠ script.mapped →
      script.consumed.count (.stage number) = 1 ∧
        ∃ index expression, number < index ∧
          script.expressions[index]? = some expression ∧
          .stage number ∈ expression.sources
  mapped : ∃ last, script.expressions.getLast? = some last ∧
    last.target = script.mapped
  unconsumed : script.mapped ∉ script.consumed

theorem exists_of_getElem?_map {filters : List Filter} {index : Nat}
    {expression : Expression}
    (found : (filters.map Filter.expression)[index]? = some expression) :
    ∃ filter, filters[index]? = some filter ∧ filter.expression = expression := by
  rw [List.getElem?_map] at found
  exact Option.map_eq_some_iff.mp found

theorem Operation.arity_action (operation : Operation) :
    operation.action.arity = operation.arity := by
  cases operation <;> rfl

/-- What filters account for makes a script in which every stream is used
once. -/
theorem Accounted.linear {inputs : List String} {filters : List Filter}
    {output : Stream}
    (accounted : Accounted 0 0 inputs.length filters [output])
    (nonempty : filters ≠ []) :
    Script.Linear ⟨inputs, filters.map Filter.expression, output⟩ := by
  have final : output = .stage (filters.length - 1) := by
    rw [accounted.output_eq nonempty, Nat.zero_add]
  have positive : 0 < filters.length := List.length_pos_iff.mpr nonempty
  have consumed : Script.consumed ⟨inputs, filters.map Filter.expression, output⟩ =
      filters.flatMap Filter.sources := List.flatMap_map ..
  refine
    { target := ?_, distinct := ?_, source := ?_, arity := ?_, inputOnce := ?_,
      stageOnce := ?_, mapped := ?_, unconsumed := ?_ }
  · intro index expression found
    obtain ⟨filter, filterFound, rfl⟩ := exists_of_getElem?_map found
    rw [Filter.expression, accounted.target_eq filterFound, Nat.zero_add]
  · have targets : (filters.map Filter.expression).map Expression.target =
        stagesFrom 0 filters.length := by
      rw [stagesFrom, ← accounted.targets, List.map_map, List.map_map]
      rfl
    rw [targets]
    exact (List.nodup_append.mp (streams_nodup 0 0 0 filters.length)).2.1
  · intro index expression found stream source
    obtain ⟨filter, filterFound, rfl⟩ := exists_of_getElem?_map found
    exact accounted.source_before filterFound source
  · intro expression member
    obtain ⟨filter, filterMember, rfl⟩ := List.mem_map.mp member
    exact (Operation.arity_action _).trans (accounted.arities filter filterMember)
  · intro slot (below : slot < inputs.length)
    have taken : Stream.input slot ∈
        slotsFrom 0 inputs.length ++ stagesFrom 0 filters.length :=
      List.mem_append_left _ (mem_slotsFrom.mpr (by omega))
    rw [consumed]
    exact accounted.consumed_once taken (by rw [final]; exact Stream.noConfusion)
  · intro number below different
    have filterBelow : number < filters.length := by
      simpa using below
    have provided : Stream.stage number ∈
        slotsFrom 0 inputs.length ++ stagesFrom 0 filters.length :=
      List.mem_append_right _ (mem_stagesFrom.mpr (by omega))
    obtain ⟨index, filter, later, found, source⟩ :=
      accounted.consumed_later filterBelow different
    refine ⟨?_, index, filter.expression, later, ?_, source⟩
    · rw [consumed]
      exact accounted.consumed_once provided different
    · rw [List.getElem?_map, found, Option.map_some]
  · obtain ⟨filter, found⟩ : ∃ filter, filters[filters.length - 1]? = some filter :=
      ⟨_, List.getElem?_eq_getElem (by omega)⟩
    refine ⟨filter.expression, ?_, ?_⟩
    · rw [List.getLast?_eq_getElem?, List.length_map, List.getElem?_map, found,
        Option.map_some]
    · rw [final, Filter.expression, accounted.target_eq found, Nat.zero_add]
  · rw [consumed]
    exact accounted.output_unconsumed nonempty

theorem Compiles.completed_accounted {root : Node} {graph : Graph}
    (compiles : Compiles 0 0 root graph) :
    Accounted 0 0 graph.inputs.length graph.completed.filters
      [graph.completed.output] := by
  have accounted := compiles.accounted
  by_cases empty : graph.filters = []
  · rw [empty] at accounted
    have passed := accounted.emit .pass rfl
    simpa [Graph.completed, empty] using passed
  · simpa [Graph.completed, empty] using accounted

/-- Every tree without empty stacks is handed over as a script in which every
stream is used once. -/
theorem arguments_linear (root : Node) (populated : root.Populated) :
    ∃ graph script, root.compile = .ok graph ∧
      Script.read? graph.arguments = some script ∧ script.Linear := by
  obtain ⟨graph, compiles⟩ := populated.compiles 0 0
  refine ⟨graph, graph.completed.script, compile_eq_ok_iff.mpr compiles,
    Script.read?_arguments graph, ?_⟩
  have accounted := compiles.completed_accounted
  rw [← Graph.completed_inputs] at accounted
  exact accounted.linear graph.completed_filters_ne_nil

theorem nestedLayers_arguments_linear :
    nestedLayers.Populated ∧
      ∃ graph script, nestedLayers.compile = .ok graph ∧
        Script.read? graph.arguments = some script ∧ script.Linear :=
  ⟨by decide, arguments_linear nestedLayers (by decide)⟩

end Montage
