import Montage.Proofs.Scene.Grammar

/-!
# First offences

A value breaks rules of its own, of which the one that is checked first counts.
A node is at fault in itself, or else in the first of its children that is no
node.  Reading fails exactly with this fault.
-/

namespace Montage.Scene

/-! ## Broken rules -/

/-- The place of a rule in the order of checks.  The last three concern
different types of node. -/
def Rule.turn : Rule → Nat
  | .isRecord => 0
  | .offsetIsRecord => 1
  | .acrossIsFinite => 2
  | .downIsFinite => 3
  | .pathIsNotBlank => 4
  | .childrenAreListed => 4
  | .typeIsKnown _ => 4

/-- A coordinate that is missing, or no number, or no finite one. -/
def NotFinite (value : Value) : Prop :=
  ∀ number : Double, value = .number number → number.isFinite = false

def UnknownType (value : Value) : Prop := ∀ nodeType : NodeType, value ≠ .text nodeType.name

/-- An offset breaks a rule, whatever other rules it breaks. -/
inductive BreaksOffset : Rule → Value → Prop where
  | isRecord {value : Value} : value ≠ .absent → (∀ fields, value ≠ .record fields) →
      BreaksOffset .offsetIsRecord value
  | across {fields : List (String × Value)} : NotFinite (Value.field "x" fields) →
      BreaksOffset .acrossIsFinite (.record fields)
  | down {fields : List (String × Value)} : NotFinite (Value.field "y" fields) →
      BreaksOffset .downIsFinite (.record fields)

/-- A value breaks a rule, whatever other rules it breaks. -/
inductive Breaks : Rule → Value → Prop where
  | isRecord {value : Value} : (∀ fields, value ≠ .record fields) → Breaks .isRecord value
  | offset {rule : Rule} {fields : List (String × Value)} :
      BreaksOffset rule (Value.field "offset" fields) → Breaks rule (.record fields)
  | path {fields : List (String × Value)} :
      Value.field "type" fields = .text "resource" →
      (∀ path, Value.field "path" fields = .text path → Text.trim path = "") →
      Breaks .pathIsNotBlank (.record fields)
  | children {fields : List (String × Value)} {kind : StackKind} :
      Value.field "type" fields = .text kind.name →
      (∀ elements, Value.field "children" fields ≠ .list elements) →
      Breaks .childrenAreListed (.record fields)
  | type {fields : List (String × Value)} {found : String} :
      UnknownType (Value.field "type" fields) →
      (Value.field "type" fields).shown? = some found →
      Breaks (.typeIsKnown found) (.record fields)

/-- A value breaks a rule, and none that is checked earlier. -/
def BreaksFirst (rule : Rule) (value : Value) : Prop :=
  Breaks rule value ∧ ∀ earlier : Rule, earlier.turn < rule.turn → ¬ Breaks earlier value

/-- A type that no node has and that no message can quote. -/
def UnquotableType (value : Value) : Prop := UnknownType value ∧ value.shown? = none

/-- What is wrong with a value itself, whatever its children are. -/
inductive Blames : Value → Fault → Prop where
  | broken {value : Value} {rule : Rule} : BreaksFirst rule value →
      Blames value (.broken [] rule)
  | unquotable {fields : List (String × Value)} :
      IsOffset (Value.field "offset" fields) → UnquotableType (Value.field "type" fields) →
      Blames (.record fields) .unquotable

/-- The fault of a node: its own, or that of its first child that is no node. -/
inductive Faulty : Value → Fault → Prop where
  | own {value : Value} {fault : Fault} : Blames value fault → Faulty value fault
  | child {fields : List (String × Value)} {kind : StackKind} {before after : List Value}
      {element : Value} {fault : Fault} :
      IsOffset (Value.field "offset" fields) →
      Value.field "type" fields = .text kind.name →
      Value.field "children" fields = .list (before ++ element :: after) →
      (∀ earlier ∈ before, IsNode earlier) → Faulty element fault →
      Faulty (.record fields) (fault.below before.length)

/-! ## The checks of a value itself -/

theorem finite?_eq_none_iff {value : Value} : finite? value = none ↔ NotFinite value := by
  cases found : finite? value with
  | none =>
      refine iff_of_true rfl ?_
      intro number isNumber
      cases finite : number.isFinite with
      | false => rfl
      | true =>
          rw [finite?_eq_some_iff.mpr ⟨isNumber, finite⟩] at found
          cases found
  | some number =>
      obtain ⟨isNumber, finite⟩ := finite?_eq_some_iff.mp found
      refine iff_of_false (Option.some_ne_none number) fun notFinite => ?_
      rw [notFinite number isNumber] at finite
      cases finite

theorem IsOffset.not_breaksOffset {value : Value} (isOffset : IsOffset value) (rule : Rule) :
    ¬ BreaksOffset rule value := by
  intro breaks
  cases isOffset with
  | missing =>
      cases breaks with
      | isRecord present _ => exact present rfl
  | given xField xFinite yField yFinite =>
      cases breaks with
      | isRecord _ other => exact other _ rfl
      | across notFinite =>
          rw [notFinite _ xField] at xFinite
          cases xFinite
      | down notFinite =>
          rw [notFinite _ yField] at yFinite
          cases yFinite

theorem BreaksOffset.turn_lt {rule : Rule} {value : Value} (breaks : BreaksOffset rule value) :
    rule.turn < 4 := by
  cases breaks <;> decide

/-- An offset that is refused breaks the rule that is named, and no earlier one. -/
theorem readOffset_fault {value : Value} {fault : Fault}
    (failed : readOffset value = .error fault) :
    ∃ rule, fault = .broken [] rule ∧ BreaksOffset rule value ∧
      ∀ earlier : Rule, earlier.turn < rule.turn → ¬ BreaksOffset earlier value := by
  match value with
  | .absent => cases failed
  | .record fields =>
      rw [readOffset] at failed
      cases across : finite? (Value.field "x" fields) with
      | none =>
          rw [across] at failed
          cases failed
          refine ⟨_, rfl, .across (finite?_eq_none_iff.mp across), ?_⟩
          intro earlier before breaks
          cases breaks with
          | isRecord _ other => exact other _ rfl
          | across _ => exact absurd before (by decide)
          | down _ => exact absurd before (by decide)
      | some x =>
          cases down : finite? (Value.field "y" fields) with
          | none =>
              rw [across, down] at failed
              cases failed
              refine ⟨_, rfl, .down (finite?_eq_none_iff.mp down), ?_⟩
              intro earlier before breaks
              cases breaks with
              | isRecord _ other => exact other _ rfl
              | across notFinite =>
                  rw [finite?_eq_none_iff.mpr notFinite] at across
                  cases across
              | down _ => exact absurd before (by decide)
          | some y =>
              rw [across, down] at failed
              cases failed
  | .null | .boolean _ | .number _ | .text _ | .list _ =>
      cases failed
      refine ⟨_, rfl, .isRecord (by rintro ⟨⟩) (by rintro _ ⟨⟩), ?_⟩
      intro earlier before breaks
      cases breaks
      exact absurd before (by decide)

theorem readOffset_eq_error_of_breaksOffset {rule : Rule} {value : Value}
    (breaks : BreaksOffset rule value)
    (first : ∀ earlier : Rule, earlier.turn < rule.turn → ¬ BreaksOffset earlier value) :
    readOffset value = .error (.broken [] rule) := by
  cases breaks with
  | isRecord present other =>
      cases value with
      | absent => exact absurd rfl present
      | record fields => exact absurd rfl (other fields)
      | _ => rfl
  | across notFinite => rw [readOffset, finite?_eq_none_iff.mpr notFinite]
  | @down fields notFinite =>
      cases across : finite? (Value.field "x" fields) with
      | none => exact absurd (.across (finite?_eq_none_iff.mp across)) (first _ (by decide))
      | some x => rw [readOffset, across, finite?_eq_none_iff.mpr notFinite]

theorem unknownType_iff_of_text {name : String} :
    UnknownType (.text name) ↔ name ≠ "resource" ∧ StackKind.ofName? name = none := by
  constructor
  · intro unknown
    refine ⟨fun same => unknown .resource (congrArg Value.text same), ?_⟩
    cases found : StackKind.ofName? name with
    | none => rfl
    | some kind =>
        have named := ofName?_eq_some_iff.mp found
        exact absurd (congrArg Value.text named) (unknown (.stack kind))
  · rintro ⟨notResource, notStack⟩ nodeType same
    rw [Value.text.injEq] at same
    cases nodeType with
    | resource => exact notResource same
    | stack kind =>
        rw [ofName?_eq_some_iff.mpr same] at notStack
        cases notStack

theorem readType_eq_error_iff {value : Value} {fault : Fault} :
    readType value = .error fault ↔ UnknownType value ∧
      ((∃ found, value.shown? = some found ∧ fault = .broken [] (.typeIsKnown found)) ∨
        value.shown? = none ∧ fault = .unquotable) := by
  constructor
  · intro failed
    have unknown : UnknownType value := by
      intro nodeType same
      rw [same, readType_name] at failed
      cases failed
    refine ⟨unknown, ?_⟩
    cases value with
    | text name =>
        obtain ⟨notResource, notStack⟩ := unknownType_iff_of_text.mp unknown
        rw [readType, if_neg notResource, notStack] at failed
        cases failed
        exact .inl ⟨name, rfl, rfl⟩
    | _ =>
        simp only [readType] at failed
        split at failed
        · next found shown =>
            cases failed
            exact .inl ⟨found, shown, rfl⟩
        · next unshown =>
            cases failed
            exact .inr ⟨unshown, rfl⟩
  · rintro ⟨unknown, quoted⟩
    cases value with
    | text name =>
        obtain ⟨notResource, notStack⟩ := unknownType_iff_of_text.mp unknown
        rw [readType, if_neg notResource, notStack]
        rcases quoted with ⟨found, shown, rfl⟩ | ⟨impossible, _⟩
        · cases shown
          rfl
        · cases impossible
    | _ =>
        simp only [readType]
        rcases quoted with ⟨found, shown, rfl⟩ | ⟨unshown, rfl⟩
        · rw [shown]
        · rw [unshown]

theorem readPath_eq_error_iff {value : Value} {fault : Fault} :
    readPath value = .error fault ↔
      (∀ path, value = .text path → Text.trim path = "") ∧
        fault = .broken [] .pathIsNotBlank := by
  constructor
  · intro failed
    cases value with
    | text path =>
        rw [readPath] at failed
        split at failed
        · next blank =>
            cases failed
            exact ⟨fun _ same => Value.text.inj same ▸ blank, rfl⟩
        · cases failed
    | _ =>
        cases failed
        exact ⟨by rintro _ ⟨⟩, rfl⟩
  · rintro ⟨blank, rfl⟩
    cases value with
    | text path => rw [readPath, if_pos (blank path rfl)]
    | _ => rfl

/-! ## Reading fails with the first fault -/

theorem IsOffset.four_le_turn {fields : List (String × Value)}
    (isOffset : IsOffset (Value.field "offset" fields)) {rule : Rule}
    (breaks : Breaks rule (.record fields)) : 4 ≤ rule.turn := by
  cases breaks with
  | isRecord other => exact absurd rfl (other fields)
  | offset breaks => exact absurd breaks (isOffset.not_breaksOffset rule)
  | path _ _ => exact Nat.le_refl 4
  | children _ _ => exact Nat.le_refl 4
  | type _ _ => exact Nat.le_refl 4

/-- A rule about the type of a node is checked once the offset is known to be
right. -/
theorem BreaksFirst.of_isOffset {fields : List (String × Value)} {rule : Rule}
    (isOffset : IsOffset (Value.field "offset" fields)) (breaks : Breaks rule (.record fields))
    (late : rule.turn = 4) : BreaksFirst rule (.record fields) := by
  refine ⟨breaks, ?_⟩
  intro earlier before breaksEarlier
  rw [late] at before
  exact absurd (isOffset.four_le_turn breaksEarlier) (Nat.not_le_of_lt before)

theorem BreaksFirst.of_breaksOffset {fields : List (String × Value)} {rule : Rule}
    (breaks : BreaksOffset rule (Value.field "offset" fields))
    (first : ∀ earlier : Rule, earlier.turn < rule.turn →
      ¬ BreaksOffset earlier (Value.field "offset" fields)) :
    BreaksFirst rule (.record fields) := by
  refine ⟨.offset breaks, ?_⟩
  intro earlier before breaksEarlier
  have early : earlier.turn < 4 := Nat.lt_trans before breaks.turn_lt
  cases breaksEarlier with
  | isRecord other => exact other fields rfl
  | offset breaksOffset => exact first earlier before breaksOffset
  | path _ _ => exact absurd early (Nat.lt_irrefl 4)
  | children _ _ => exact absurd early (Nat.lt_irrefl 4)
  | type _ _ => exact absurd early (Nat.lt_irrefl 4)

/-- The elements of a list hold a fault: all before some element are nodes, and
that one is faulty. -/
def FaultyAmong (index : Nat) (elements : List Value) (fault : Fault) : Prop :=
  ∃ before element after inner, elements = before ++ element :: after ∧
    (∀ earlier ∈ before, IsNode earlier) ∧ Faulty element inner ∧
    fault = inner.below (index + before.length)

theorem FaultyAmong.later {index : Nat} {first : Value} {rest : List Value} {fault : Fault}
    (isNode : IsNode first) (among : FaultyAmong (index + 1) rest fault) :
    FaultyAmong index (first :: rest) fault := by
  obtain ⟨before, element, after, inner, rfl, areNodes, faulty, rfl⟩ := among
  refine ⟨first :: before, element, after, inner, rfl,
    List.forall_mem_cons.mpr ⟨isNode, areNodes⟩, faulty, ?_⟩
  rw [List.length_cons, Nat.add_assoc, Nat.add_comm 1]

mutual

theorem readNode_faulty {value : Value} {fault : Fault}
    (failed : readNode value = .error fault) : Faulty value fault := by
  match value with
  | .record fields =>
      rw [readNode] at failed
      rcases bind_eq_error_iff.mp failed with badOffset | ⟨offset, offsetRead, remaining⟩
      · obtain ⟨rule, rfl, breaks, first⟩ := readOffset_fault badOffset
        exact .own (.broken (.of_breaksOffset breaks first))
      have isOffset := (readOffset_eq_ok_iff.mp offsetRead).1
      rcases bind_eq_error_iff.mp remaining with badType | ⟨nodeType, typeRead, result⟩
      · obtain ⟨unknown, quoted⟩ := readType_eq_error_iff.mp badType
        rcases quoted with ⟨found, shown, rfl⟩ | ⟨unshown, rfl⟩
        · exact .own (.broken (.of_isOffset isOffset (.type unknown shown) rfl))
        · exact .own (.unquotable isOffset ⟨unknown, unshown⟩)
      have typeField := readType_eq_ok_iff.mp typeRead
      cases nodeType with
      | resource =>
          rcases bind_eq_error_iff.mp result with badPath | ⟨_, _, impossible⟩
          · obtain ⟨blank, rfl⟩ := readPath_eq_error_iff.mp badPath
            exact .own (.broken (.of_isOffset isOffset (.path typeField blank) rfl))
          · cases impossible
      | stack kind =>
          rcases bind_eq_error_iff.mp result with badChildren | ⟨_, _, impossible⟩
          · rcases readChildren_faulty badChildren with ⟨unlisted, rfl⟩ | ⟨elements, given, among⟩
            · exact .own (.broken (.of_isOffset isOffset (.children typeField unlisted) rfl))
            · obtain ⟨before, element, after, inner, rfl, areNodes, faulty, rfl⟩ := among
              rw [Nat.zero_add]
              exact .child isOffset typeField given areNodes faulty
          · cases impossible
  | .absent | .null | .boolean _ | .number _ | .text _ | .list _ =>
      cases failed
      refine .own (.broken ⟨.isRecord (by rintro _ ⟨⟩), ?_⟩)
      intro earlier before
      exact absurd before (Nat.not_lt_zero _)

theorem readChildren_faulty {fields : List (String × Value)} {fault : Fault}
    (failed : readChildren fields = .error fault) :
    (∀ elements, Value.field "children" fields ≠ .list elements) ∧
        fault = .broken [] .childrenAreListed ∨
      ∃ elements, Value.field "children" fields = .list elements ∧
        FaultyAmong 0 elements fault := by
  match fields with
  | [] =>
      cases failed
      exact .inl ⟨by rintro _ ⟨⟩, rfl⟩
  | (name, value) :: rest =>
      rw [readChildren] at failed
      rw [Value.field, Value.field?]
      split at failed
      · next named =>
          rw [if_pos named]
          exact readList_faulty failed
      · next named =>
          rw [if_neg named]
          exact readChildren_faulty failed

theorem readList_faulty {value : Value} {fault : Fault}
    (failed : readList value = .error fault) :
    (∀ elements, value ≠ .list elements) ∧ fault = .broken [] .childrenAreListed ∨
      ∃ elements, value = .list elements ∧ FaultyAmong 0 elements fault := by
  match value with
  | .list elements =>
      rw [readList] at failed
      exact .inr ⟨elements, rfl, readElements_faulty failed⟩
  | .absent | .null | .boolean _ | .number _ | .text _ | .record _ =>
      cases failed
      exact .inl ⟨by rintro _ ⟨⟩, rfl⟩

theorem readElements_faulty {index : Nat} {elements : List Value} {fault : Fault}
    (failed : readElements index elements = .error fault) :
    FaultyAmong index elements fault := by
  match elements with
  | [] => cases failed
  | element :: rest =>
      rw [readElements] at failed
      cases firstRead : readNode element with
      | error inner =>
          rw [firstRead] at failed
          cases failed
          exact ⟨[], element, rest, inner, rfl, by rintro _ ⟨⟩, readNode_faulty firstRead, rfl⟩
      | ok first =>
          rw [firstRead] at failed
          rcases bind_eq_error_iff.mp failed with badRest | ⟨_, _, impossible⟩
          · exact (readElements_faulty badRest).later (readNode_sound firstRead).1
          · cases impossible

end

theorem readList_eq_error_of_unlisted {value : Value}
    (unlisted : ∀ elements, value ≠ .list elements) :
    readList value = .error (.broken [] .childrenAreListed) := by
  cases value with
  | list elements => exact absurd rfl (unlisted elements)
  | _ => rfl

theorem exists_readOffset_of_unbroken {fields : List (String × Value)}
    (unbroken : ∀ earlier : Rule, earlier.turn < 4 → ¬ Breaks earlier (.record fields)) :
    ∃ offset, readOffset (Value.field "offset" fields) = .ok offset := by
  cases result : readOffset (Value.field "offset" fields) with
  | ok offset => exact ⟨offset, rfl⟩
  | error fault =>
      obtain ⟨rule, _, breaks, _⟩ := readOffset_fault result
      exact absurd (.offset breaks) (unbroken rule breaks.turn_lt)

theorem BreaksFirst.readNode_eq {value : Value} {rule : Rule}
    (breaksFirst : BreaksFirst rule value) :
    readNode value = .error (.broken [] rule) := by
  obtain ⟨breaks, unbroken⟩ := breaksFirst
  cases breaks with
  | isRecord other =>
      cases value with
      | record fields => exact absurd rfl (other fields)
      | _ => rfl
  | offset breaksOffset =>
      have first := fun earlier before breaksEarlier =>
        unbroken earlier before (.offset breaksEarlier)
      rw [readNode, readOffset_eq_error_of_breaksOffset breaksOffset first]
      rfl
  | path typeField blank =>
      obtain ⟨offset, offsetRead⟩ := exists_readOffset_of_unbroken unbroken
      have typeRead : readType _ = .ok .resource := readType_eq_ok_iff.mpr typeField
      have pathRefused := readPath_eq_error_iff.mpr ⟨blank, rfl⟩
      simp only [readNode, offsetRead, typeRead, pathRefused, bind, Except.bind]
  | @children _ kind typeField unlisted =>
      obtain ⟨offset, offsetRead⟩ := exists_readOffset_of_unbroken unbroken
      have typeRead : readType _ = .ok (.stack kind) := readType_eq_ok_iff.mpr typeField
      have childrenRefused : readList (Value.field "children" _) = _ :=
        readList_eq_error_of_unlisted unlisted
      simp only [readNode, offsetRead, typeRead, readChildren_eq, childrenRefused, bind,
        Except.bind]
  | type unknown shown =>
      obtain ⟨offset, offsetRead⟩ := exists_readOffset_of_unbroken unbroken
      have typeRefused := readType_eq_error_iff.mpr ⟨unknown, .inl ⟨_, shown, rfl⟩⟩
      simp only [readNode, offsetRead, typeRefused, bind, Except.bind]

/-- An own fault of a value is what reading it comes to. -/
theorem Blames.readNode_eq {value : Value} {fault : Fault} (blames : Blames value fault) :
    readNode value = .error fault := by
  cases blames with
  | broken breaksFirst => exact breaksFirst.readNode_eq
  | unquotable isOffset unquotable =>
      obtain ⟨offset, writes⟩ := isOffset.exists_writes
      have offsetRead := readOffset_eq_ok_iff.mpr ⟨isOffset, writes⟩
      have typeRefused := readType_eq_error_iff.mpr ⟨unquotable.1, .inr ⟨unquotable.2, rfl⟩⟩
      simp only [readNode, offsetRead, typeRefused, bind, Except.bind]

theorem readElements_eq_error {before after : List Value} {element : Value} {fault : Fault}
    (areNodes : ∀ earlier ∈ before, IsNode earlier) (failed : readNode element = .error fault)
    (index : Nat) :
    readElements index (before ++ element :: after) =
      .error (fault.below (index + before.length)) := by
  induction before generalizing index with
  | nil => rw [List.nil_append, readElements, failed]; rfl
  | cons first before induction =>
      obtain ⟨isNode, others⟩ := List.forall_mem_cons.mp areNodes
      obtain ⟨node, writes⟩ := isNode.exists_writes
      rw [List.cons_append, readElements, writes.readNode_eq isNode, induction others,
        List.length_cons, Nat.add_assoc, Nat.add_comm 1]
      rfl

theorem Faulty.readNode_eq {value : Value} {fault : Fault} (faulty : Faulty value fault) :
    readNode value = .error fault := by
  induction faulty with
  | own blames => exact blames.readNode_eq
  | @child fields kind before after element fault isOffset typeField given areNodes _ failed =>
      obtain ⟨offset, writes⟩ := isOffset.exists_writes
      have offsetRead := readOffset_eq_ok_iff.mpr ⟨isOffset, writes⟩
      have typeRead : readType _ = .ok (.stack kind) := readType_eq_ok_iff.mpr typeField
      have childrenFailed : readElements 0 (before ++ element :: after) = _ :=
        readElements_eq_error areNodes failed 0
      rw [Nat.zero_add] at childrenFailed
      simp only [readNode, offsetRead, typeRead, readChildren_eq, given, readList,
        childrenFailed, bind, Except.bind]

theorem readNode_eq_error_iff {value : Value} {fault : Fault} :
    readNode value = .error fault ↔ Faulty value fault :=
  ⟨readNode_faulty, Faulty.readNode_eq⟩

end Montage.Scene
