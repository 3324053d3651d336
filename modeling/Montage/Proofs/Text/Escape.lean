import Mathlib.Algebra.GroupWithZero.Nat
import Montage.Proofs.Host.NullFree
import Montage.Proofs.Number.Characters
import Montage.Text.Escape

/-!
# Control characters

Line ends and tabs are control characters, and so are the other characters that show
no mark.  A text that is written on one line has none of the former, but keeps all of
the latter.
-/

namespace Montage.Text

/-- The characters that show no mark: those before the space, and the last one of
ASCII. -/
def isControl (character : Char) : Bool :=
  character.toNat < 0x20 || character.toNat = 0x7F

/-- The control characters that have a mark of their own on one line. -/
def marked : List Char := ['\r', '\n', '\t']

/-! ## Texts without control characters -/

/-- A text without control characters. -/
def Printable (text : String) : Prop :=
  ∀ character ∈ text.toList, isControl character = false

instance (text : String) : Decidable (Printable text) :=
  List.decidableBAll (fun character => isControl character = false) text.toList

variable {text : String} {character : Char}

theorem Printable.not_mem (printable : Printable text) (control : isControl character = true) :
    character ∉ text.toList := by
  intro member
  rw [printable character member] at control
  cases control

theorem Printable.append {other : String} (first : Printable text) (second : Printable other) :
    Printable (text ++ other) := by
  intro character member
  rw [String.toList_append, List.mem_append] at member
  rcases member with inFirst | inSecond
  · exact first character inFirst
  · exact second character inSecond

theorem isControl_of_isNumeric (numeric : isNumeric character = true) :
    isControl character = false := by
  -- Control characters are in ASCII, which can be gone through.
  have apart : ∀ code < 128, isNumeric (Char.ofNat code) = true →
      isControl (Char.ofNat code) = false := by decide
  by_cases ascii : character.toNat < 128
  · have found := apart character.toNat ascii
    rw [Char.ofNat_toNat] at found
    exact found numeric
  · simp only [isControl, Bool.or_eq_false_iff, decide_eq_false_iff_not]
    omega

theorem printable_of_numeric (numeric : Numeric text.toList) : Printable text :=
  fun character member => isControl_of_isNumeric (numeric character member)

theorem printable_of_not_mem
    (lacks : ∀ character, isControl character = true → character ∉ text.toList) :
    Printable text := by
  intro character member
  cases control : isControl character with
  | false => rfl
  | true => exact absurd member (lacks character control)

/-- A control character after a printable text is in what follows it. -/
theorem mem_append_iff (printable : Printable text) (control : isControl character = true)
    (rest : String) : character ∈ (text ++ rest).toList ↔ character ∈ rest.toList := by
  rw [String.toList_append, List.mem_append]
  exact or_iff_right (printable.not_mem control)

theorem mem_intercalate_iff {separator : String} (apart : character ∉ separator.toList)
    {texts : List String} :
    character ∈ (String.intercalate separator texts).toList ↔
      ∃ text ∈ texts, character ∈ text.toList := by
  rw [String.toList_intercalate]
  constructor
  · intro member
    rcases mem_of_mem_intercalate member with inSeparator | ⟨characters, listed, inText⟩
    · exact absurd inSeparator apart
    · obtain ⟨text, textListed, rfl⟩ := List.mem_map.mp listed
      exact ⟨text, textListed, inText⟩
  · rintro ⟨text, listed, inText⟩
    induction texts with
    | nil => cases listed
    | cons first rest induction =>
        cases rest with
        | nil =>
            rw [List.mem_singleton.mp listed] at inText
            simpa using inText
        | cons second rest =>
            rw [List.map_cons, List.map_cons, List.intercalate_cons_cons, List.append_assoc,
              List.mem_append, List.mem_append]
            rcases List.mem_cons.mp listed with rfl | later
            · exact .inl inText
            · exact .inr (.inr (induction later))

/-! ## Texts on one line -/

theorem mem_oneLineChar_iff (control : isControl character = true) {written : Char} :
    character ∈ oneLineChar written ↔ character = written ∧ character ∉ marked := by
  have apart (letter : Char) (printed : isControl letter = false) : character ≠ letter := by
    rintro rfl
    rw [printed] at control
    cases control
  have unwritten (letter : Char) (printed : isControl letter = false) :
      character ∉ ['\\', letter] := by
    simp [apart '\\' rfl, apart letter printed]
  have onlyMarked {mark : Char} (listed : mark ∈ marked) :
      ¬ (character = mark ∧ character ∉ marked) := by
    rintro ⟨rfl, unmarked⟩
    exact unmarked listed
  rw [oneLineChar]
  split
  · next same =>
      subst same
      exact iff_of_false (unwritten 'r' rfl) (onlyMarked (by decide))
  · next notReturn =>
      split
      · next same =>
          subst same
          exact iff_of_false (unwritten 'n' rfl) (onlyMarked (by decide))
      · next notFeed =>
          split
          · next same =>
              subst same
              exact iff_of_false (unwritten 't' rfl) (onlyMarked (by decide))
          · next notTab =>
              rw [List.mem_singleton]
              refine (and_iff_left_of_imp ?_).symm
              rintro rfl
              simp [marked, notReturn, notFeed, notTab]

/-- Of the control characters in a text, those with a mark of their own are not
written on one line, and all others are. -/
theorem mem_oneLine_iff (control : isControl character = true) :
    character ∈ (oneLine text).toList ↔ character ∈ text.toList ∧ character ∉ marked := by
  rw [oneLine, String.toList_ofList, List.mem_flatMap]
  simp only [mem_oneLineChar_iff control]
  constructor
  · rintro ⟨written, member, rfl, unmarked⟩
    exact ⟨member, unmarked⟩
  · rintro ⟨member, unmarked⟩
    exact ⟨character, member, rfl, unmarked⟩

/-! ## Line breaks -/

/-- How many lines of a text are ended within it. -/
def breaks (text : String) : Nat := text.toList.count '\n'

theorem breaks_append (text other : String) : breaks (text ++ other) = breaks text + breaks other := by
  rw [breaks, breaks, breaks, String.toList_append, List.count_append]

theorem breaks_of_not_mem (lacks : '\n' ∉ text.toList) : breaks text = 0 :=
  List.count_eq_zero.mpr lacks

theorem Printable.breaks (printable : Printable text) : breaks text = 0 :=
  breaks_of_not_mem (printable.not_mem rfl)

theorem breaks_oneLine (text : String) : breaks (oneLine text) = 0 := by
  refine breaks_of_not_mem fun member => ?_
  exact ((mem_oneLine_iff rfl).mp member).2 (by decide)

theorem breaks_intercalate (separator first : String) (rest : List String) :
    breaks (String.intercalate separator (first :: rest)) =
      breaks first + (rest.map fun text => breaks separator + breaks text).sum := by
  simp only [breaks, String.toList_intercalate, List.map_cons]
  induction rest generalizing first with
  | nil => simp
  | cons second rest induction =>
      have joined := induction second
      rw [List.map_cons, List.intercalate_cons_cons, List.count_append, List.count_append, joined,
        List.map_cons, List.sum_cons]
      omega

theorem breaks_intercalate_of_unbroken {separator : String} (unbroken : breaks separator = 0)
    (texts : List String) :
    breaks (String.intercalate separator texts) = (texts.map breaks).sum := by
  cases texts with
  | nil => rfl
  | cons first rest =>
      simp only [breaks_intercalate, unbroken, Nat.zero_add, List.map_cons, List.sum_cons]

end Montage.Text
