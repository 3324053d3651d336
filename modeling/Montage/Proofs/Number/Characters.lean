import Montage.Number.Shortest

/-!
# The characters of numbers

Naturals are written in decimal digits, and reading the digits gives the
natural back.  The text of a floating-point number has letters, digits, signs
and points only, so it contains no character that has a meaning in a filter.
-/

namespace Montage

/-! ## Naturals -/

/-- The natural that a non-empty list of decimal digits writes. -/
def readNatural? (characters : List Char) : Option Nat :=
  if characters ≠ [] ∧ characters.all Char.isDigit then
    some (Nat.ofDigitChars 10 characters 0)
  else none

theorem isDigit_of_mem_toDigits {natural : Nat} {character : Char}
    (member : character ∈ Nat.toDigits 10 natural) : character.isDigit = true :=
  Nat.isDigit_of_mem_toDigits (by decide) (by decide) member

@[simp] theorem readNatural?_toDigits (natural : Nat) :
    readNatural? (Nat.toDigits 10 natural) = some natural := by
  have digits : (Nat.toDigits 10 natural).all Char.isDigit = true :=
    List.all_eq_true.mpr fun _ member => isDigit_of_mem_toDigits member
  rw [readNatural?, if_pos ⟨Nat.toDigits_ne_nil, digits⟩,
    Nat.ofDigitChars_ten_toDigits]

/-! ## Floating-point numbers -/

/-- The characters that occur in numbers: letters, digits, signs and points. -/
def isNumeric (character : Char) : Bool :=
  character.isAlphanum || character = '-' || character = '+' || character = '.'

theorem isNumeric_of_isDigit {character : Char}
    (digit : character.isDigit = true) : isNumeric character = true := by
  simp [isNumeric, Char.isAlphanum, digit]

def Numeric (characters : List Char) : Prop :=
  ∀ character ∈ characters, isNumeric character = true

namespace Numeric

theorem nil : Numeric [] := by
  intro character member
  cases member

theorem cons {head : Char} {tail : List Char}
    (headNumeric : isNumeric head = true) (tailNumeric : Numeric tail) :
    Numeric (head :: tail) := by
  intro character member
  rcases List.mem_cons.mp member with rfl | inTail
  · exact headNumeric
  · exact tailNumeric character inTail

theorem append {front back : List Char}
    (frontNumeric : Numeric front) (backNumeric : Numeric back) :
    Numeric (front ++ back) := by
  intro character member
  rcases List.mem_append.mp member with inFront | inBack
  · exact frontNumeric character inFront
  · exact backNumeric character inBack

theorem of_all {text : List Char} (all : text.all isNumeric = true) : Numeric text :=
  List.all_eq_true.mp all

theorem mono {small large : List Char} (numeric : Numeric large)
    (subset : small ⊆ large) : Numeric small :=
  fun character member => numeric character (subset member)

theorem toDigits (natural : Nat) : Numeric (Nat.toDigits 10 natural) :=
  fun _ member => isNumeric_of_isDigit (isDigit_of_mem_toDigits member)

theorem not_mem {text : List Char} {character : Char} (numeric : Numeric text)
    (other : isNumeric character = false) : character ∉ text := by
  intro member
  rw [numeric character member] at other
  cases other

theorem zeros (count : Nat) : Numeric (List.replicate count '0') := by
  intro character member
  rw [List.eq_of_mem_replicate member]
  decide

end Numeric

namespace Double

theorem dropTrailingZeros_subset (digits : List Char) :
    dropTrailingZeros digits ⊆ digits := by
  intro character member
  rw [dropTrailingZeros, List.mem_reverse] at member
  exact List.mem_reverse.mp ((List.dropWhile_sublist _).mem member)

/-- Laying digits out adds zeros, a point, signs and an exponent only. -/
theorem layout_numeric {digits : List Char} (numeric : Numeric digits) (place : Int) :
    Numeric (layout digits place) := by
  have front (count : Nat) : Numeric (digits.take count) :=
    numeric.mono (List.take_subset count digits)
  have back (count : Nat) : Numeric (digits.drop count) :=
    numeric.mono (List.drop_subset count digits)
  have sign (exponent : Int) : isNumeric (if exponent < 0 then '-' else '+') = true := by
    split <;> decide
  have fraction :
      Numeric (if digits.length ≤ 1 then [] else '.' :: digits.drop 1) := by
    split
    · exact .nil
    · exact .cons rfl (back 1)
  unfold layout
  dsimp only
  split
  · exact numeric.append (.zeros _)
  split
  · exact (front _).append (.cons rfl (back _))
  split
  · exact .cons rfl (.cons rfl ((Numeric.zeros _).append numeric))
  · exact ((front 1).append fraction).append
      (.cons rfl (.cons (sign _) (.toDigits _)))

theorem textList_numeric (number : Double) : Numeric number.textList := by
  have sign (negative : Bool) : Numeric (if negative then ['-'] else []) := by
    cases negative
    · exact .nil
    · exact .cons rfl .nil
  have infinity : Numeric "Infinity".toList := .of_all rfl
  have nan : Numeric "NaN".toList := .of_all rfl
  unfold textList
  split
  · split
    · exact (sign _).append infinity
    · exact nan
  split
  · exact .cons rfl .nil
  · have digits : Numeric number.shortestDigits.1 :=
      (Numeric.toDigits _).mono (dropTrailingZeros_subset _)
    exact (sign _).append (layout_numeric digits _)

end Double

end Montage
