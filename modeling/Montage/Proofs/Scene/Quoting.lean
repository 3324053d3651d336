import Mathlib.Data.List.Basic
import Montage.Proofs.Scene.Place

/-!
# Types that messages quote

A message that refuses a type quotes its plain text.  A value has none if it is a
record that defines `toString`, or a list with such a value somewhere in it.
Only a type like that makes reading fail without naming a place.
-/

namespace Montage.Scene

/-- A value without a plain text. -/
inductive HasNoText : Value → Prop where
  | record {fields : List (String × Value)} {rule : Value} :
      Value.field? "toString" fields = some rule → HasNoText (.record fields)
  | list {elements : List Value} {element : Value} :
      element ∈ elements → HasNoText element → HasNoText (.list elements)

mutual

theorem shownWithin?_eq_none_iff {inList : Bool} {value : Value} :
    value.shownWithin? inList = none ↔ HasNoText value := by
  match value with
  | .record fields =>
      rw [Value.shownWithin?]
      cases found : Value.field? "toString" fields with
      | none =>
          refine iff_of_false (by rintro ⟨⟩) ?_
          rintro (isRule | _)
          rw [found] at isRule
          cases isRule
      | some rule => exact iff_of_true rfl (.record found)
  | .list elements =>
      rw [Value.shownWithin?, Option.map_eq_none_iff, shownElements?_eq_none_iff]
      constructor
      · rintro ⟨element, member, noText⟩
        exact .list member noText
      · rintro (_ | ⟨member, noText⟩)
        exact ⟨_, member, noText⟩
  | .absent | .null | .boolean _ | .number _ | .text _ =>
      refine iff_of_false ?_ (by rintro ⟨⟩)
      rintro ⟨⟩

theorem shownElements?_eq_none_iff {elements : List Value} :
    Value.shownElements? elements = none ↔ ∃ element ∈ elements, HasNoText element := by
  match elements with
  | [] => simp [Value.shownElements?]
  | element :: rest =>
      have first : Value.shownWithin? true element = none ↔ _ := shownWithin?_eq_none_iff
      have others : Value.shownElements? rest = none ↔ _ := shownElements?_eq_none_iff
      rw [List.exists_mem_cons_iff, ← first, ← others, Value.shownElements?]
      cases Value.shownWithin? true element <;> cases Value.shownElements? rest <;> simp

end

theorem shown?_eq_none_iff {value : Value} : value.shown? = none ↔ HasNoText value :=
  shownWithin?_eq_none_iff

/-- Whatever comes after it, the path of a place does not begin the message about
a type without a plain text. -/
theorem message_unquotable_ne (isWrapped wrapped : Bool) (place : List Nat) (rest : String) :
    (Error.mk isWrapped .unquotable).message ≠
      "scene" ++ String.join ((stepsTo wrapped place).map Step.text) ++ rest := by
  intro same
  have message : (Error.mk isWrapped .unquotable).message =
      "Cannot convert object to primitive value" := rfl
  have first := congrArg (fun text => text.toList.head?) same
  simp only [message, String.append_assoc, String.toList_append] at first
  simp at first

/-- Reading a document yields a tree, or it fails with a message that begins with
the path of a value in the document and goes on with a rule, unless the first
value that is not right has an unknown type without a plain text.  Then it fails
without naming any place. -/
theorem read_names_place_unless_type_has_no_text (document : Value) :
    (((∃ tree, read document = .ok tree) ∨
      ∃ (error : Error) (wrapped : Bool) (place : List Nat) (value : Value) (rule : Rule),
        read document = .error error ∧
        reach? document (stepsTo wrapped place) = some value ∧
        error.message =
          "scene" ++ String.join ((stepsTo wrapped place).map Step.text) ++ rule.text) ↔
      ¬ ∃ wrapped place fields, Meets document wrapped place (.record fields) ∧
        IsOffset (Value.field "offset" fields) ∧ UnknownType (Value.field "type" fields) ∧
        HasNoText (Value.field "type" fields)) ∧
    ∀ wrapped, (Error.mk wrapped .unquotable).message =
      "Cannot convert object to primitive value" := by
  refine ⟨⟨?_, ?_⟩, fun _ => rfl⟩
  · rintro named ⟨wrapped, place, fields, met, isOffset, unknown, noText⟩
    have failed := read_eq_unquotable_iff.mpr
      ⟨place, fields, met, isOffset, unknown, shown?_eq_none_iff.mpr noText⟩
    rcases named with ⟨tree, success⟩ | ⟨error, _, _, _, _, failure, _, message⟩
    · rw [failed] at success
      cases success
    · rw [failed] at failure
      cases failure
      exact message_unquotable_ne _ _ _ _ message
  · intro quotable
    cases result : read document with
    | ok tree => exact .inl ⟨tree, rfl⟩
    | error error =>
        obtain ⟨wrapped, fault⟩ := error
        cases fault with
        | broken place rule =>
            obtain ⟨value, met, _⟩ := read_eq_broken_iff.mp result
            exact .inr ⟨_, wrapped, place, value, rule, rfl, met.first.reached,
              message_broken wrapped place rule⟩
        | unquotable =>
            obtain ⟨place, fields, met, isOffset, unknown, unshown⟩ :=
              read_eq_unquotable_iff.mp result
            exact absurd ⟨wrapped, place, fields, met, isOffset, unknown,
              shown?_eq_none_iff.mp unshown⟩ quotable

/-- A node whose type is a record that defines `toString`. -/
def silentNode : Value := .record [("type", .record [("toString", .boolean true)])]

theorem silentNode_names_no_place :
    read silentNode = .error ⟨false, .unquotable⟩ ∧
    ∀ wrapped place rest, (Error.mk false .unquotable).message ≠
      "scene" ++ String.join ((stepsTo wrapped place).map Step.text) ++ rest :=
  ⟨rfl, message_unquotable_ne false⟩

end Montage.Scene
