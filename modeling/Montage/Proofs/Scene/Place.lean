import Montage.Proofs.Scene.Offence

/-!
# Places of documents

A place of a document is reached by steps into fields and elements, and a
message names it by the same steps.  Reading fails at the first place that
breaks a rule: parents come before their children, and children from left to
right.
-/

namespace Montage.Scene

/-! ## Going into a document -/

/-- One step into a value. -/
inductive Step where
  | field (name : String)
  | element (index : Nat)
deriving DecidableEq, Repr

/-- A step as a message shows it. -/
def Step.text : Step → String
  | .field name => "." ++ name
  | .element index => "[" ++ toString index ++ "]"

def Step.enter? : Step → Value → Option Value
  | .field name, .record fields => Value.field? name fields
  | .element index, .list elements => elements[index]?
  | _, _ => none

/-- What steps lead to, one after another. -/
def reach? (value : Value) : List Step → Option Value
  | [] => some value
  | step :: rest => (step.enter? value).bind (reach? · rest)

/-- The steps from a node to a place below it. -/
def childSteps (place : List Nat) : List Step :=
  place.flatMap fun index => [.field "children", .element index]

/-- The steps from a document to the root of its tree. -/
def rootSteps (wrapped : Bool) : List Step := if wrapped then [.field "root"] else []

/-- The steps from a document to a place of its tree. -/
def stepsTo (wrapped : Bool) (place : List Nat) : List Step :=
  rootSteps wrapped ++ childSteps place

theorem placeText_eq_steps (wrapped : Bool) (place : List Nat) :
    placeText wrapped place = "scene" ++ String.join ((stepsTo wrapped place).map Step.text) := by
  have below : String.join (place.map fun index => ".children[" ++ toString index ++ "]") =
      String.join ((childSteps place).map Step.text) := by
    induction place with
    | nil => rfl
    | cons index place induction =>
        apply String.toList_inj.mp
        have tail := congrArg String.toList induction
        simpa [childSteps, Step.text, String.join_cons] using tail
  rw [placeText, below, stepsTo, rootSteps]
  cases wrapped
  · rfl
  · simp [String.join_cons, Step.text, ← String.append_assoc]

/-! ## What is read before a place -/

/-- A value passes all of its own checks, whatever its children are. -/
inductive Passes : Value → Prop where
  | resource {fields : List (String × Value)} {path : String} :
      IsOffset (Value.field "offset" fields) →
      Value.field "type" fields = .text "resource" →
      Value.field "path" fields = .text path → Text.trim path ≠ "" →
      Passes (.record fields)
  | stack {fields : List (String × Value)} {kind : StackKind} {elements : List Value} :
      IsOffset (Value.field "offset" fields) →
      Value.field "type" fields = .text kind.name →
      Value.field "children" fields = .list elements →
      Passes (.record fields)

def IsStack (value : Value) : Prop :=
  ∃ fields kind, value = .record fields ∧ Value.field "type" fields = .text (StackKind.name kind)

/-- A place is reached, everything above it is a stack that passes its own checks,
and all to the left of the way to it are nodes.  Places are counted from the value
that the first steps lead to. -/
structure ReachedFirst (document : Value) (start : List Step) (place : List Nat)
    (value : Value) : Prop where
  reached : reach? document (start ++ childSteps place) = some value
  above : ∀ above index below, place = above ++ index :: below →
    ∃ ancestor, reach? document (start ++ childSteps above) = some ancestor ∧
      Passes ancestor ∧ IsStack ancestor
  left : ∀ above index below, place = above ++ index :: below → ∀ earlier < index,
    ∃ sibling, reach? document (start ++ childSteps (above ++ [earlier])) = some sibling ∧
      IsNode sibling

theorem field?_of_field {name : String} {fields : List (String × Value)} {value : Value}
    (given : Value.field name fields = value) (present : value ≠ .absent) :
    Value.field? name fields = some value := by
  cases found : Value.field? name fields with
  | none =>
      rw [Value.field, found] at given
      exact absurd given.symm present
  | some other =>
      rw [Value.field, found] at given
      rw [← given, Option.getD_some]

theorem reach?_append (document : Value) (front back : List Step) :
    reach? document (front ++ back) = (reach? document front).bind (reach? · back) := by
  induction front generalizing document with
  | nil => rfl
  | cons step front induction =>
      rw [List.cons_append, reach?, reach?]
      cases step.enter? document with
      | none => rfl
      | some inner => exact induction inner

theorem reach?_child {fields : List (String × Value)} {elements : List Value}
    (given : Value.field "children" fields = .list elements) (index : Nat) (place : List Nat) :
    reach? (.record fields) (childSteps (index :: place)) =
      elements[index]?.bind (reach? · (childSteps place)) := by
  have found := field?_of_field given (by rintro ⟨⟩)
  have opened : childSteps (index :: place) =
      .field "children" :: .element index :: childSteps place := rfl
  rw [opened, reach?, Step.enter?, found, Option.bind_some, reach?, Step.enter?]

theorem exists_stack_of_passes {value : Value} (passes : Passes value)
    (isStack : IsStack value) :
    ∃ fields kind elements, value = .record fields ∧
      IsOffset (Value.field "offset" fields) ∧
      Value.field "type" fields = .text (StackKind.name kind) ∧
      Value.field "children" fields = .list elements := by
  obtain ⟨fields, kind, rfl, typeField⟩ := isStack
  cases passes with
  | resource _ otherType _ _ =>
      rw [typeField, Value.text.injEq] at otherType
      exact absurd otherType (name_ne_resource kind)
  | stack isOffset _ given => exact ⟨fields, kind, _, rfl, isOffset, typeField, given⟩

theorem reachedFirst_of_start {document root value : Value} {start : List Step}
    {place : List Nat} (begins : reach? document start = some root) :
    ReachedFirst document start place value ↔ ReachedFirst root [] place value := by
  have along (steps : List Step) :
      reach? document (start ++ steps) = reach? root ([] ++ steps) := by
    rw [reach?_append, begins, Option.bind_some, List.nil_append]
  constructor
  · rintro ⟨reached, above, left⟩
    simp only [along] at reached above left
    exact ⟨reached, above, left⟩
  · rintro ⟨reached, above, left⟩
    simp only [← along] at reached above left
    exact ⟨reached, above, left⟩

theorem reachedFirst_nil_iff {root value : Value} :
    ReachedFirst root [] [] value ↔ root = value := by
  constructor
  · intro first
    exact Option.some.inj first.reached
  · rintro rfl
    have nowhere {above below : List Nat} {index : Nat}
        (impossible : [] = above ++ index :: below) : False :=
      List.append_ne_nil_of_right_ne_nil above (List.cons_ne_nil _ _) impossible.symm
    exact ⟨rfl, fun _ _ _ impossible => (nowhere impossible).elim,
      fun _ _ _ impossible => (nowhere impossible).elim⟩

theorem reach?_element {fields : List (String × Value)} {elements : List Value}
    {element : Value} {index : Nat} (given : Value.field "children" fields = .list elements)
    (found : elements[index]? = some element) (place : List Nat) :
    reach? (.record fields) ([] ++ childSteps (index :: place)) =
      reach? element ([] ++ childSteps place) := by
  rw [List.nil_append, List.nil_append, reach?_child given, found, Option.bind_some]

/-- What is reached through a stack is reached in one of its children, and the
earlier ones are nodes. -/
theorem ReachedFirst.exists_child {root value : Value} {index : Nat} {place : List Nat}
    (first : ReachedFirst root [] (index :: place) value) :
    ∃ fields kind before element after, root = .record fields ∧
      IsOffset (Value.field "offset" fields) ∧
      Value.field "type" fields = .text (StackKind.name kind) ∧
      Value.field "children" fields = .list (before ++ element :: after) ∧
      before.length = index ∧ (∀ earlier ∈ before, IsNode earlier) ∧
      ReachedFirst element [] place value := by
  obtain ⟨ancestor, isRoot, passes, isStack⟩ := first.above [] index place rfl
  cases isRoot
  obtain ⟨fields, kind, elements, rfl, isOffset, typeField, given⟩ :=
    exists_stack_of_passes passes isStack
  have reached := first.reached
  rw [List.nil_append, reach?_child given, Option.bind_eq_some_iff] at reached
  obtain ⟨element, found, elementReached⟩ := reached
  obtain ⟨inRange, isElement⟩ := List.getElem?_eq_some_iff.mp found
  have whole : elements = elements.take index ++ element :: elements.drop (index + 1) := by
    rw [← isElement, ← List.drop_eq_getElem_cons inRange, List.take_append_drop]
  have areNodes : ∀ earlier ∈ elements.take index, IsNode earlier := by
    intro earlier member
    obtain ⟨left, bound, rfl⟩ := List.mem_take_iff_getElem.mp member
    obtain ⟨sibling, siblingReached, isNode⟩ :=
      first.left [] index place rfl left (Nat.lt_of_lt_of_le bound (Nat.min_le_left _ _))
    rw [List.nil_append, List.nil_append, reach?_child given, List.getElem?_eq_getElem,
      Option.bind_some] at siblingReached
    exact Option.some.inj siblingReached ▸ isNode
  refine ⟨fields, kind, elements.take index, element, elements.drop (index + 1), rfl, isOffset,
    typeField, whole ▸ given, List.length_take_of_le (Nat.le_of_lt inRange), areNodes, ?_, ?_, ?_⟩
  · exact elementReached
  · intro above other below same
    obtain ⟨inner, innerReached, sound⟩ :=
      first.above (index :: above) other below (by rw [same]; rfl)
    rw [reach?_element given found] at innerReached
    exact ⟨inner, innerReached, sound⟩
  · intro above other below same earlier before
    obtain ⟨sibling, siblingReached, isNode⟩ :=
      first.left (index :: above) other below (by rw [same]; rfl) earlier before
    rw [List.cons_append, reach?_element given found] at siblingReached
    exact ⟨sibling, siblingReached, isNode⟩

theorem ReachedFirst.child {fields : List (String × Value)} {kind : StackKind}
    {before after : List Value} {element value : Value} {place : List Nat}
    (isOffset : IsOffset (Value.field "offset" fields))
    (typeField : Value.field "type" fields = .text kind.name)
    (given : Value.field "children" fields = .list (before ++ element :: after))
    (areNodes : ∀ earlier ∈ before, IsNode earlier)
    (first : ReachedFirst element [] place value) :
    ReachedFirst (.record fields) [] (before.length :: place) value := by
  have found : (before ++ element :: after)[before.length]? = some element := by simp
  refine ⟨?_, ?_, ?_⟩
  · rw [reach?_element given found]
    exact first.reached
  · intro above index below same
    cases above with
    | nil => exact ⟨_, rfl, .stack isOffset typeField given, fields, kind, rfl, typeField⟩
    | cons head above =>
        obtain ⟨rfl, rest⟩ := List.cons.inj same
        rw [reach?_element given found]
        exact first.above above index below rest
  · intro above index below same earlier bound
    cases above with
    | nil =>
        obtain ⟨rfl, _⟩ := List.cons.inj same
        refine ⟨before[earlier], ?_, areNodes _ (List.getElem_mem bound)⟩
        rw [List.nil_append, List.nil_append, reach?_child given,
          List.getElem?_append_left bound, List.getElem?_eq_getElem bound]
        rfl
    | cons head above =>
        obtain ⟨rfl, rest⟩ := List.cons.inj same
        rw [List.cons_append, reach?_element given found]
        exact first.left above index below rest earlier bound

/-- The fault of a node is that of the value that is reached first and at fault in
itself. -/
theorem faulty_iff {root : Value} {fault : Fault} :
    Faulty root fault ↔ ∃ place value own, ReachedFirst root [] place value ∧
      Blames value own ∧ fault = place.foldr Fault.below own := by
  constructor
  · intro faulty
    induction faulty with
    | own blames => exact ⟨[], _, _, reachedFirst_nil_iff.mpr rfl, blames, rfl⟩
    | child isOffset typeField given areNodes _ induction =>
        obtain ⟨place, value, own, first, blames, rfl⟩ := induction
        exact ⟨_ :: place, value, own, .child isOffset typeField given areNodes first, blames, rfl⟩
  · rintro ⟨place, value, own, first, blames, rfl⟩
    induction place generalizing root with
    | nil =>
        rw [reachedFirst_nil_iff.mp first]
        exact .own blames
    | cons index place induction =>
        obtain ⟨fields, kind, before, element, after, rfl, isOffset, typeField, given, rfl,
          areNodes, below⟩ := first.exists_child
        exact .child isOffset typeField given areNodes (induction below)

/-! ## Places that messages name -/

theorem foldr_below_broken (place : List Nat) (rule : Rule) :
    place.foldr Fault.below (.broken [] rule) = .broken place rule := by
  induction place with
  | nil => rfl
  | cons index place induction => rw [List.foldr_cons, induction]; rfl

theorem foldr_below_unquotable (place : List Nat) :
    place.foldr Fault.below .unquotable = .unquotable := by
  induction place with
  | nil => rfl
  | cons index place induction => rw [List.foldr_cons, induction]; rfl

/-- A value that a reader of a document comes to after it has found everything
before it right.  A document is wrapped if it has a field `root`. -/
structure Meets (document : Value) (wrapped : Bool) (place : List Nat) (value : Value) :
    Prop where
  wrapping : wrapped = true ↔ ∃ root, wrappedRoot? document = some root
  first : ReachedFirst document (rootSteps wrapped) place value

theorem exists_root (document : Value) :
    ∃ wrapped root, (wrapped = true ↔ ∃ inner, wrappedRoot? document = some inner) ∧
      reach? document (rootSteps wrapped) = some root ∧
      read document = (readNode root).mapError fun fault => ⟨wrapped, fault⟩ := by
  cases found : wrappedRoot? document with
  | none =>
      refine ⟨false, document, by simp, rfl, ?_⟩
      rw [read, found]
  | some root =>
      refine ⟨true, root, by simp, ?_, ?_⟩
      · cases document with
        | record fields =>
            rw [rootSteps, if_pos rfl, reach?, Step.enter?]
            rw [wrappedRoot?] at found
            rw [found]
            rfl
        | _ => cases found
      · rw [read, found]

theorem read_eq_error_iff {document : Value} {wrapped : Bool} {fault : Fault} :
    read document = .error ⟨wrapped, fault⟩ ↔ ∃ place value own,
      Meets document wrapped place value ∧ Blames value own ∧
        fault = place.foldr Fault.below own := by
  obtain ⟨isWrapped, root, wrapping, begins, result⟩ := exists_root document
  have meets {place : List Nat} {value : Value} :
      Meets document isWrapped place value ↔ ReachedFirst root [] place value := by
    rw [← reachedFirst_of_start begins]
    exact ⟨Meets.first, fun first => ⟨wrapping, first⟩⟩
  rw [result, mapError_eq_error_iff]
  constructor
  · rintro ⟨found, failed, same⟩
    cases same
    obtain ⟨place, value, own, first, blames, rfl⟩ :=
      faulty_iff.mp (readNode_eq_error_iff.mp failed)
    exact ⟨place, value, own, meets.mpr first, blames, rfl⟩
  · rintro ⟨place, value, own, met, blames, rfl⟩
    have same : wrapped = isWrapped := Bool.eq_iff_iff.mpr (met.wrapping.trans wrapping.symm)
    subst same
    have faulty := faulty_iff.mpr ⟨place, value, own, meets.mp met, blames, rfl⟩
    exact ⟨_, readNode_eq_error_iff.mpr faulty, rfl⟩

theorem read_eq_broken_iff {document : Value} {wrapped : Bool} {place : List Nat} {rule : Rule} :
    read document = .error ⟨wrapped, .broken place rule⟩ ↔
      ∃ value, Meets document wrapped place value ∧ BreaksFirst rule value := by
  rw [read_eq_error_iff]
  constructor
  · rintro ⟨found, value, own, met, blames, same⟩
    cases blames with
    | broken breaksFirst =>
        rw [foldr_below_broken] at same
        cases same
        exact ⟨value, met, breaksFirst⟩
    | unquotable _ _ =>
        rw [foldr_below_unquotable] at same
        cases same
  · rintro ⟨value, met, breaksFirst⟩
    exact ⟨place, value, _, met, .broken breaksFirst, (foldr_below_broken place rule).symm⟩

theorem read_eq_unquotable_iff {document : Value} {wrapped : Bool} :
    read document = .error ⟨wrapped, .unquotable⟩ ↔
      ∃ place fields, Meets document wrapped place (.record fields) ∧
        IsOffset (Value.field "offset" fields) ∧
        UnquotableType (Value.field "type" fields) := by
  rw [read_eq_error_iff]
  constructor
  · rintro ⟨place, value, own, met, blames, same⟩
    cases blames with
    | broken _ =>
        rw [foldr_below_broken] at same
        cases same
    | unquotable isOffset unquotable => exact ⟨place, _, met, isOffset, unquotable⟩
  · rintro ⟨place, fields, met, isOffset, unquotable⟩
    exact ⟨place, _, _, met, .unquotable isOffset unquotable, (foldr_below_unquotable place).symm⟩

theorem message_broken (wrapped : Bool) (place : List Nat) (rule : Rule) :
    (Error.mk wrapped (.broken place rule)).message =
      "scene" ++ String.join ((stepsTo wrapped place).map Step.text) ++ rule.text := by
  rw [← placeText_eq_steps]
  rfl

example :
    read (.record [("type", .text "hstack"), ("children", .list [
      .record [("type", .text "resource"), ("path", .text "clip.mp4")],
      .record [("type", .text "resource"), ("path", .text " ")]])]) =
      .error ⟨false, .broken [1] .pathIsNotBlank⟩ := rfl

example : (Error.mk false (.broken [1] .pathIsNotBlank)).message =
    "scene.children[1].path must be a non-empty string" := by decide

end Montage.Scene
