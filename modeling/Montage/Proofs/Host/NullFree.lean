import Montage.Host.Files
import Montage.Host.Process
import Montage.Proofs.Computation

/-!
# Texts without null characters

A host takes a text up to its first null character, so jobs hand over only texts
without one.  Paths and joined texts have none if what they are made of has
none.
-/

namespace Montage

/-- A text that can be handed to the host as a whole. -/
def NullFree (text : String) : Prop := '\x00' ∉ text.toList

instance (text : String) : Decidable (NullFree text) := inferInstanceAs (Decidable (¬ _))

/-! ## Joined texts and paths -/

theorem mem_of_mem_intercalate {α : Type} {separator : List α} {lists : List (List α)}
    {item : α} (member : item ∈ separator.intercalate lists) :
    item ∈ separator ∨ ∃ list ∈ lists, item ∈ list := by
  induction lists with
  | nil => cases member
  | cons first rest induction =>
      cases rest with
      | nil =>
          rw [List.intercalate_singleton] at member
          exact .inr ⟨first, List.mem_cons_self, member⟩
      | cons second rest =>
          rw [List.intercalate_cons_cons, List.append_assoc, List.mem_append,
            List.mem_append] at member
          rcases member with inFirst | inSeparator | inRest
          · exact .inr ⟨first, List.mem_cons_self, inFirst⟩
          · exact .inl inSeparator
          · rcases induction inRest with inSeparator | ⟨list, listed, inList⟩
            · exact .inl inSeparator
            · exact .inr ⟨list, List.mem_cons_of_mem _ listed, inList⟩

theorem NullFree.intercalate {separator : String} {texts : List String}
    (separatorFree : NullFree separator) (textsFree : ∀ text ∈ texts, NullFree text) :
    NullFree (String.intercalate separator texts) := by
  intro member
  rw [String.toList_intercalate] at member
  rcases mem_of_mem_intercalate member with inSeparator | ⟨characters, listed, inText⟩
  · exact separatorFree inSeparator
  · obtain ⟨text, textListed, rfl⟩ := List.mem_map.mp listed
    exact textsFree text textListed inText

namespace Path

theorem mem_of_mem_splitList {characters part : List Char} {character : Char}
    (listed : part ∈ splitList characters) (member : character ∈ part) :
    character ∈ characters := by
  induction characters generalizing part with
  | nil =>
      rw [splitList, List.mem_singleton] at listed
      subst listed
      cases member
  | cons first rest induction =>
      rw [splitList] at listed
      split at listed
      · rcases List.mem_cons.mp listed with rfl | later
        · cases member
        · exact List.mem_cons_of_mem _ (induction later member)
      · split at listed
        · rw [List.mem_singleton] at listed
          subst listed
          rw [List.mem_singleton] at member
          exact member ▸ List.mem_cons_self
        · next head others found =>
          rw [found] at induction
          rcases List.mem_cons.mp listed with rfl | later
          · rcases List.mem_cons.mp member with rfl | inHead
            · exact List.mem_cons_self
            · exact List.mem_cons_of_mem _ (induction List.mem_cons_self inHead)
          · exact List.mem_cons_of_mem _ (induction (List.mem_cons_of_mem _ later) member)

theorem nullFree_of_mem_parts {path part : String} (nullFree : NullFree path)
    (listed : part ∈ parts path) : NullFree part := by
  obtain ⟨characters, split, rfl⟩ := List.mem_map.mp listed
  intro member
  rw [String.toList_ofList] at member
  exact nullFree (mem_of_mem_splitList split member)

theorem mem_of_mem_step {location : Location} {part name : String}
    (member : name ∈ step location part) : name ∈ location ∨ name = part := by
  unfold step at member
  split at member
  · exact .inl member
  · split at member
    · exact .inl (List.dropLast_subset _ member)
    · rw [List.mem_append, List.mem_singleton] at member
      exact member

theorem mem_of_mem_follow {start : Location} {parts : List String} {name : String}
    (member : name ∈ follow start parts) : name ∈ start ∨ name ∈ parts := by
  induction parts generalizing start with
  | nil => exact .inl member
  | cons part parts induction =>
      rcases induction member with inStep | later
      · rcases mem_of_mem_step inStep with inStart | rfl
        · exact .inl inStart
        · exact .inr List.mem_cons_self
      · exact .inr (List.mem_cons_of_mem _ later)

theorem nullFree_of_mem_resolve {directory : Location} {path name : String}
    (directoryFree : ∀ above ∈ directory, NullFree above) (pathFree : NullFree path)
    (member : name ∈ resolve directory path) : NullFree name := by
  rcases mem_of_mem_follow member with inStart | inParts
  · split at inStart
    · cases inStart
    · exact directoryFree name inStart
  · exact nullFree_of_mem_parts pathFree inParts

theorem nullFree_ofLocation {location : Location}
    (namesFree : ∀ name ∈ location, NullFree name) : NullFree (ofLocation location) := by
  have joined : NullFree (join location) := NullFree.intercalate (by decide) namesFree
  rw [ofLocation, NullFree, String.toList_append, List.mem_append]
  rintro (inSlash | inJoined)
  · exact absurd inSlash (by decide)
  · exact joined inJoined

end Path

/-! ## Settings -/

namespace Settings

/-- A text setting is given, or comes from the environment, or is the
default. -/
theorem textSetting_cases (given ambient : Option String) (standard : String) :
    textSetting given ambient standard ∈ given ∨
      textSetting given ambient standard ∈ ambient ∨
        textSetting given ambient standard = standard := by
  cases first : present? given with
  | some text =>
      left
      rw [textSetting, first]
      exact (Option.filter_eq_some_iff.mp first).1
  | none =>
      right
      rw [textSetting, first]
      cases second : present? ambient with
      | some text => exact .inl (Option.filter_eq_some_iff.mp second).1
      | none => exact .inr rfl

theorem nullFree_textSetting {given ambient : Option String} {standard : String}
    (givenFree : ∀ text ∈ given, NullFree text) (ambientFree : ∀ text ∈ ambient, NullFree text)
    (standardFree : NullFree standard) : NullFree (textSetting given ambient standard) := by
  rcases textSetting_cases given ambient standard with isGiven | isAmbient | isStandard
  · exact givenFree _ isGiven
  · exact ambientFree _ isAmbient
  · rw [isStandard]
    exact standardFree

end Settings

/-! ## Handing texts over -/

namespace Job

theorem run_refuseNullPath {path : String} (nullFree : NullFree path) (world : World) :
    refuseNullPath path world = .ok () world := by
  rw [refuseNullPath, if_neg (mt List.contains_iff_mem.mp nullFree)]
  rfl

theorem exists_refuseNullPath_refusal {path : String} (holds : ¬ NullFree path)
    (world : World) : ∃ failure, refuseNullPath path world = .error failure world := by
  rw [refuseNullPath, if_pos (List.contains_iff_mem.mpr (Decidable.not_not.mp holds))]
  exact ⟨_, rfl⟩

theorem run_refuseNull {content : String} (nullFree : NullFree content)
    (reason name : String) (world : World) :
    refuseNull reason name content world = .ok () world := by
  rw [refuseNull, if_neg (mt List.contains_iff_mem.mp nullFree)]
  rfl

theorem run_refuseNull_of_holds {content : String} (holds : ¬ NullFree content)
    (reason name : String) (world : World) :
    refuseNull reason name content world =
      .error (.refusedArgument name reason content) world := by
  rw [refuseNull, if_pos (List.contains_iff_mem.mpr (Decidable.not_not.mp holds))]
  rfl

theorem run_refuseNullArguments {arguments : List String}
    (nullFree : ∀ argument ∈ arguments, NullFree argument) (index : Nat) (world : World) :
    refuseNullArguments index arguments world = .ok () world := by
  induction arguments generalizing index with
  | nil => rfl
  | cons argument rest induction =>
      have first := nullFree argument List.mem_cons_self
      have others := fun other member => nullFree other (List.mem_cons_of_mem _ member)
      rw [refuseNullArguments, run_bind_of_ok (run_refuseNull first _ _ world)]
      exact induction others (index + 1)

theorem exists_refuseNullArguments_refusal {arguments : List String}
    (holds : ¬ ∀ argument ∈ arguments, NullFree argument) (index : Nat) (world : World) :
    ∃ name reason content, refuseNullArguments index arguments world =
      .error (.refusedArgument name reason content) world := by
  induction arguments generalizing index with
  | nil => exact absurd (fun _ member => by cases member) holds
  | cons argument rest induction =>
      rw [refuseNullArguments]
      by_cases first : NullFree argument
      · rw [List.forall_mem_cons, not_and] at holds
        rw [run_bind_of_ok (run_refuseNull first _ _ world)]
        exact induction (holds first) (index + 1)
      · exact ⟨_, _, _, run_bind_of_error (run_refuseNull_of_holds first _ _ world)⟩

end Job

end Montage
