import Montage.Proofs.Number.Characters
import Montage.Proofs.Number.Shortest
import Montage.Value.Reader

/-!
# Numbers read back

The reader takes the text of a finite number for that number.  Only the sign of zero
is lost.
-/

namespace Montage

/-- What the text of a finite number stands for: both zeros are written alike. -/
def Double.settled (number : Double) : Double :=
  if number.significand = 0 then .zero false else number

theorem Double.isFinite_settled {number : Double} (finite : number.isFinite = true) :
    number.settled.isFinite = true := by
  rw [settled]
  split
  · exact isFinite_zero false
  · exact finite

theorem Double.text_settled {number : Double} (finite : number.isFinite = true) :
    number.settled.text = number.text := by
  have notGreatest : number.exponent.val ≠ 2047 := Nat.ne_of_lt (of_decide_eq_true finite)
  rw [settled]
  split
  · next isZero =>
      rw [text, text, textList, textList, if_neg notGreatest, if_pos isZero]
      rfl
  · rfl

namespace Value.Reader

/-! ## Digits -/

def Digits (characters : List Char) : Prop :=
  ∀ character ∈ characters, character.isDigit = true

theorem Digits.append {front back : List Char} (frontDigits : Digits front)
    (backDigits : Digits back) : Digits (front ++ back) :=
  List.forall_mem_append.mpr ⟨frontDigits, backDigits⟩

theorem Digits.zeros (count : Nat) : Digits (List.replicate count '0') := by
  intro character member
  rw [List.eq_of_mem_replicate member]
  rfl

theorem Digits.toDigits (natural : Nat) : Digits (Nat.toDigits 10 natural) :=
  fun _ => isDigit_of_mem_toDigits

/-- The digits of a number are at an end. -/
def Undigited (rest : List Char) : Prop := ∀ next ∈ rest.head?, next.isDigit = false

theorem takeWhile_digits {digits rest : List Char} (areDigits : Digits digits)
    (ends : Undigited rest) : (digits ++ rest).takeWhile Char.isDigit = digits := by
  have none : rest.takeWhile Char.isDigit = [] := by
    cases rest with
    | nil => rfl
    | cons next rest => rw [List.takeWhile_cons, ends next rfl]; rfl
  rw [List.takeWhile_append_of_pos areDigits, none, List.append_nil]

theorem dropWhile_digits {digits rest : List Char} (areDigits : Digits digits)
    (ends : Undigited rest) : (digits ++ rest).dropWhile Char.isDigit = rest := by
  rw [List.dropWhile_append_of_pos areDigits]
  cases rest with
  | nil => rfl
  | cons next rest => rw [List.dropWhile_cons, ends next rfl]; rfl

theorem natural_eq (digits : List Char) : natural digits = Nat.ofDigitChars 10 digits 0 := by
  rw [natural, Nat.ofDigitChars_eq_foldl]
  simp only [Nat.mul_comm 10]
  rfl

theorem natural_append (front back : List Char) :
    natural (front ++ back) = 10 ^ back.length * natural front + natural back := by
  rw [natural_eq, Nat.ofDigitChars_append, Nat.ofDigitChars_eq_ofDigitChars_zero, natural_eq,
    natural_eq]

theorem natural_zeros (count : Nat) : natural (List.replicate count '0') = 0 := by
  rw [natural_eq, Nat.ofDigitChars_replicate_zero, Nat.mul_zero]

theorem natural_toDigits (number : Nat) : natural (Nat.toDigits 10 number) = number := by
  rw [natural_eq, Nat.ofDigitChars_ten_toDigits]

/-- Digits that begin a number: there are some, and no zero leads them. -/
structure Leads (digits : List Char) : Prop where
  areDigits : Digits digits
  unled : ∃ first others, digits = first :: others ∧ first ≠ '0'

/-! ## The parts of a number -/

theorem integer?_of_leads {digits rest : List Char} (leads : Leads digits)
    (ends : Undigited rest) : integer? (digits ++ rest) = some (digits, rest) := by
  have taken := takeWhile_digits leads.areDigits ends
  have dropped := dropWhile_digits leads.areDigits ends
  obtain ⟨first, others, rfl, notZero⟩ := leads.unled
  rw [List.cons_append] at taken dropped ⊢
  unfold integer?
  split
  · next same => exact absurd (List.cons.inj same).1 notZero
  · rw [taken, dropped]

theorem fraction?_of_digits {digits rest : List Char} (areDigits : Digits digits)
    (some : digits ≠ []) (ends : Undigited rest) :
    fraction? ('.' :: (digits ++ rest)) = .some (digits, rest) := by
  rw [fraction?, takeWhile_digits areDigits ends, dropWhile_digits areDigits ends]
  cases digits with
  | nil => exact absurd rfl some
  | cons first others => rfl

/-- A number is at an end. -/
structure EndsNumber (rest : List Char) : Prop where
  undigited : Undigited rest
  unpointed : rest.head? ≠ some '.'
  unscaled : ∀ next ∈ rest.head?, next ≠ 'e' ∧ next ≠ 'E'

theorem EndsNumber.nil : EndsNumber [] :=
  ⟨by rintro _ ⟨⟩, by rintro ⟨⟩, by rintro _ ⟨⟩⟩

theorem EndsNumber.cons {next : Char}
    (mark : next.isDigit = false ∧ next ≠ '.' ∧ next ≠ 'e' ∧ next ≠ 'E') (rest : List Char) :
    EndsNumber (next :: rest) := by
  obtain ⟨notDigit, notPoint, notScale⟩ := mark
  refine ⟨?_, ?_, ?_⟩
  · rintro _ ⟨⟩
    exact notDigit
  · rintro ⟨⟩
    exact notPoint rfl
  · rintro _ ⟨⟩
    exact notScale

theorem fraction?_of_unpointed {rest : List Char} (unpointed : rest.head? ≠ some '.') :
    fraction? rest = some ([], rest) := by
  unfold fraction?
  split
  · exact absurd rfl unpointed
  · rfl

theorem exponent?_of_ends {rest : List Char} (ends : EndsNumber rest) :
    exponent? rest = some (0, rest) := by
  cases rest with
  | nil => rfl
  | cons next rest =>
      exact if_neg (not_or.mpr (ends.unscaled next rfl))

theorem exponent?_written (power : Int) {rest : List Char} (ends : Undigited rest) :
    exponent? ('e' :: (if power < 0 then '-' else '+') ::
      (Nat.toDigits 10 power.natAbs ++ rest)) = some (power, rest) := by
  have taken := takeWhile_digits (.toDigits power.natAbs) ends
  have dropped := dropWhile_digits (.toDigits power.natAbs) ends
  have value := natural_toDigits power.natAbs
  have present := Nat.toDigits_ne_nil (b := 10) (n := power.natAbs)
  generalize Nat.toDigits 10 power.natAbs = digits at taken dropped value present ⊢
  obtain ⟨first, others, rfl⟩ := List.exists_cons_of_ne_nil present
  by_cases negative : power < 0
  · rw [if_pos negative]
    unfold exponent?
    simp only [true_or, if_true, taken, dropped, value]
    congr 2
    omega
  · rw [if_neg negative]
    unfold exponent?
    simp only [true_or, if_true, Bool.false_eq_true, if_false, taken, dropped, value]
    congr 2
    omega

/-- A sign and the parts of a number make the number. -/
theorem number?_of_parts {unsigned afterWhole afterDecimals rest whole decimals : List Char}
    {power : Int} (negative : Bool)
    (wholeRead : integer? unsigned = some (whole, afterWhole))
    (decimalsRead : fraction? afterWhole = some (decimals, afterDecimals))
    (powerRead : exponent? afterDecimals = some (power, rest)) :
    number? ((if negative then ['-'] else []) ++ unsigned) =
      some (.ofDecimal negative (natural (whole ++ decimals)) (power - decimals.length), rest) := by
  cases negative with
  | true =>
      unfold number?
      simp only [if_true, List.cons_append, List.nil_append, wholeRead, decimalsRead, powerRead]
  | false =>
      have unsignedNot (more : List Char) : unsigned ≠ '-' :: more := by
        rintro rfl
        cases wholeRead
      unfold number?
      rw [if_neg Bool.false_ne_true, List.nil_append]
      split
      next negative' unsigned' split =>
      split at split
      · exact absurd rfl (unsignedNot _)
      · obtain ⟨rfl, rfl⟩ := Prod.mk.inj split
        simp only [wholeRead, decimalsRead, powerRead]

/-! ## Digits laid out -/

theorem undigited_cons {next : Char} (other : next.isDigit = false) (rest : List Char) :
    Undigited (next :: rest) := by
  rintro _ ⟨⟩
  exact other

theorem Leads.ne_nil {digits : List Char} (leads : Leads digits) : digits ≠ [] := by
  obtain ⟨first, others, rfl, _⟩ := leads.unled
  exact List.cons_ne_nil first others

theorem Leads.append {digits more : List Char} (leads : Leads digits) (areDigits : Digits more) :
    Leads (digits ++ more) := by
  obtain ⟨first, others, rfl, notZero⟩ := leads.unled
  exact ⟨leads.areDigits.append areDigits, first, others ++ more, rfl, notZero⟩

theorem Leads.take {digits : List Char} (leads : Leads digits) {count : Nat}
    (positive : 0 < count) : Leads (digits.take count) := by
  obtain ⟨first, others, rfl, notZero⟩ := leads.unled
  obtain ⟨fewer, rfl⟩ := Nat.exists_eq_add_one.mpr positive
  exact ⟨fun character member => leads.areDigits character (List.take_subset _ _ member),
    first, others.take fewer, rfl, notZero⟩

theorem Digits.drop {digits : List Char} (areDigits : Digits digits) (count : Nat) :
    Digits (digits.drop count) :=
  fun character member => areDigits character (List.drop_subset _ _ member)

section Layout

variable (negative : Bool) {digits rest : List Char}

/-- Zeros are filled in up to the point. -/
theorem number?_filled (leads : Leads digits) (ends : EndsNumber rest) (zeros : Nat) :
    number? ((if negative then ['-'] else []) ++ (digits ++ List.replicate zeros '0' ++ rest)) =
      some (.ofDecimal negative (10 ^ zeros * natural digits) 0, rest) := by
  rw [number?_of_parts negative
    (integer?_of_leads (leads.append (.zeros zeros)) ends.undigited)
    (fraction?_of_unpointed ends.unpointed) (exponent?_of_ends ends)]
  rw [List.append_nil, natural_append, natural_zeros, List.length_replicate]
  rfl

/-- The point stands between digits. -/
theorem number?_pointed (leads : Leads digits) (ends : EndsNumber rest) {count : Nat}
    (positive : 0 < count) (inside : count < digits.length) :
    number? ((if negative then ['-'] else []) ++
        (digits.take count ++ '.' :: digits.drop count ++ rest)) =
      some (.ofDecimal negative (natural digits) (-((digits.length - count : Nat) : Int)),
        rest) := by
  have present : digits.drop count ≠ [] := by
    rw [ne_eq, List.drop_eq_nil_iff]
    omega
  rw [List.append_assoc, List.cons_append, number?_of_parts negative
    (integer?_of_leads (leads.take positive) (undigited_cons rfl _))
    (fraction?_of_digits (leads.areDigits.drop count) present ends.undigited)
    (exponent?_of_ends ends), List.take_append_drop, List.length_drop, zero_sub]

/-- Zeros stand between the point and the digits. -/
theorem number?_small (leads : Leads digits) (ends : EndsNumber rest) (zeros : Nat) :
    number? ((if negative then ['-'] else []) ++
        ('0' :: '.' :: (List.replicate zeros '0' ++ digits) ++ rest)) =
      some (.ofDecimal negative (natural digits) (-((zeros + digits.length : Nat) : Int)),
        rest) := by
  have present : List.replicate zeros '0' ++ digits ≠ [] :=
    List.append_ne_nil_of_right_ne_nil _ leads.ne_nil
  have whole : integer? ('0' :: '.' :: ((List.replicate zeros '0' ++ digits) ++ rest)) =
      some (['0'], '.' :: ((List.replicate zeros '0' ++ digits) ++ rest)) := rfl
  have unled : natural (['0'] ++ (List.replicate zeros '0' ++ digits)) = natural digits := by
    rw [natural_append, natural_append, natural_zeros]
    simp [natural]
  rw [List.cons_append, List.cons_append, number?_of_parts negative whole
    (fraction?_of_digits ((Digits.zeros zeros).append leads.areDigits) present ends.undigited)
    (exponent?_of_ends ends), unled, List.length_append, List.length_replicate, zero_sub]

/-- One digit stands before the point, and a power of ten after the digits. -/
theorem number?_scaled (leads : Leads digits) (ends : EndsNumber rest) (power : Int) :
    number? ((if negative then ['-'] else []) ++
        (digits.take 1 ++ (if digits.length ≤ 1 then [] else '.' :: digits.drop 1) ++
          'e' :: (if power < 0 then '-' else '+') :: Nat.toDigits 10 power.natAbs ++ rest)) =
      some (.ofDecimal negative (natural digits) (power - (digits.length - 1 : Nat)), rest) := by
  have exponent := exponent?_written power ends.undigited
  by_cases single : digits.length ≤ 1
  · have whole : digits.take 1 = digits := List.take_of_length_le single
    have none : digits.length - 1 = 0 := by omega
    rw [if_pos single, whole, List.append_nil, List.append_assoc, List.cons_append,
      List.cons_append, number?_of_parts negative
        (integer?_of_leads leads (undigited_cons rfl _)) (fraction?_of_unpointed (by simp))
        exponent, List.append_nil, none]
    rfl
  · have present : digits.drop 1 ≠ [] := by
      rw [ne_eq, List.drop_eq_nil_iff]
      omega
    rw [if_neg single, List.append_assoc, List.append_assoc, List.cons_append,
      List.cons_append, List.cons_append, number?_of_parts negative
        (integer?_of_leads (leads.take Nat.one_pos) (undigited_cons rfl _))
        (fraction?_of_digits (leads.areDigits.drop 1) present (undigited_cons rfl _))
        exponent, List.take_append_drop, List.length_drop]

/-- However digits are laid out, they are read as the number of their value. -/
theorem exists_number?_layout (leads : Leads digits) (ends : EndsNumber rest) (place : Int) :
    ∃ (significand : Nat) (power : Int),
      number? ((if negative then ['-'] else []) ++ (Double.layout digits place ++ rest)) =
        some (.ofDecimal negative significand power, rest) ∧
      (significand : ℚ) * 10 ^ power = natural digits * 10 ^ (place - digits.length) := by
  unfold Double.layout
  dsimp only
  by_cases filled : (digits.length : Int) ≤ place ∧ place ≤ 21
  · rw [if_pos filled]
    refine ⟨_, _, number?_filled negative leads ends _, ?_⟩
    have zeros : ((place - digits.length).toNat : Int) = place - digits.length := by omega
    have shift : (10 : ℚ) ^ (place - digits.length) = 10 ^ (place - digits.length).toNat := by
      rw [← zpow_natCast, zeros]
    rw [shift, zpow_zero, mul_one, Nat.cast_mul, Nat.cast_pow, Nat.cast_ofNat, mul_comm]
  rw [if_neg filled]
  by_cases pointed : 0 < place ∧ place ≤ 21
  · rw [if_pos pointed]
    have positive : 0 < place.toNat := by omega
    have inside : place.toNat < digits.length := by omega
    refine ⟨_, _, number?_pointed negative leads ends positive inside, ?_⟩
    congr 2
    omega
  rw [if_neg pointed]
  by_cases small : -6 < place ∧ place ≤ 0
  · rw [if_pos small]
    refine ⟨_, _, number?_small negative leads ends _, ?_⟩
    congr 2
    omega
  · rw [if_neg small]
    refine ⟨_, _, number?_scaled negative leads ends (place - 1), ?_⟩
    have positive := List.length_pos_of_ne_nil leads.ne_nil
    congr 2
    omega

end Layout

/-! ## The shortest digits -/

theorem exists_dropTrailingZeros_append (digits : List Char) :
    ∃ zeros, digits = Double.dropTrailingZeros digits ++ List.replicate zeros '0' := by
  have split := List.takeWhile_append_dropWhile (p := (· == '0')) (l := digits.reverse)
  have zeros : digits.reverse.takeWhile (· == '0') =
      List.replicate (digits.reverse.takeWhile (· == '0')).length '0' := by
    rw [List.eq_replicate_iff]
    refine ⟨rfl, fun character member => ?_⟩
    exact beq_iff_eq.mp (List.all_eq_true.mp List.all_takeWhile character member)
  refine ⟨(digits.reverse.takeWhile (· == '0')).length, ?_⟩
  rw [Double.dropTrailingZeros, ← List.reverse_replicate, ← zeros, ← List.reverse_append, split,
    List.reverse_reverse]

theorem toDigits_head_ne_zero {natural : Nat} (positive : 0 < natural) :
    ∃ first others, Nat.toDigits 10 natural = first :: others ∧ first ≠ '0' := by
  induction natural using Nat.strongRecOn with
  | ind natural induction =>
      rw [Nat.toDigits_eq_if (by decide)]
      split
      · next small =>
          have digits : ∀ digit < 10, 0 < digit → Nat.digitChar digit ≠ '0' := by decide
          exact ⟨_, [], rfl, digits natural small positive⟩
      · next large =>
          obtain ⟨first, others, shorter, notZero⟩ :=
            induction (natural / 10) (by omega) (by omega)
          rw [shorter]
          exact ⟨first, others ++ [(natural % 10).digitChar], rfl, notZero⟩

/-- Without zeros at the end, digits still begin a number. -/
theorem leads_shortestDigits {natural : Nat} (positive : 0 < natural) :
    Leads (Double.dropTrailingZeros (Nat.toDigits 10 natural)) := by
  have areDigits : Digits (Double.dropTrailingZeros (Nat.toDigits 10 natural)) :=
    fun character member =>
      Digits.toDigits natural character (Double.dropTrailingZeros_subset _ member)
  obtain ⟨first, others, isDigits, notZero⟩ := toDigits_head_ne_zero positive
  obtain ⟨zeros, whole⟩ := exists_dropTrailingZeros_append (Nat.toDigits 10 natural)
  generalize Double.dropTrailingZeros (Nat.toDigits 10 natural) = kept at areDigits whole ⊢
  rw [isDigits] at whole
  cases kept with
  | nil =>
      have member : first ∈ List.replicate zeros '0' := by
        rw [← List.nil_append (List.replicate zeros '0'), ← whole]
        exact List.mem_cons_self
      exact absurd (List.eq_of_mem_replicate member) notZero
  | cons first' kept =>
      obtain ⟨rfl, _⟩ := List.cons.inj whole
      exact ⟨areDigits, first, kept, rfl, notZero⟩

/-- The digits and the place of a decimal have its value. -/
theorem value_shortestDigits (decimal : Double.Decimal) :
    let digits := Nat.toDigits 10 decimal.digits
    let kept := Double.dropTrailingZeros digits
    (natural kept : ℚ) * 10 ^ (decimal.power + digits.length - kept.length) = decimal.value := by
  intro digits kept
  obtain ⟨zeros, whole⟩ := exists_dropTrailingZeros_append digits
  have lengths : digits.length = kept.length + zeros := by
    rw [whole, List.length_append, List.length_replicate]
  have value : decimal.digits = 10 ^ zeros * natural kept := by
    rw [← natural_toDigits decimal.digits]
    change natural digits = _
    rw [whole, natural_append, natural_zeros, List.length_replicate]
    rfl
  have shift : decimal.power + digits.length - kept.length = zeros + decimal.power := by omega
  rw [Double.Decimal.value, value, shift, zpow_add₀ (by norm_num), zpow_natCast]
  push_cast
  ring

/-! ## Numbers -/

/-- The text of a finite number is read as that number, with nothing left over. -/
theorem number?_textList {number : Double} (finite : number.isFinite = true)
    {rest : List Char} (ends : EndsNumber rest) :
    number? (number.textList ++ rest) = some (number.settled, rest) := by
  have notGreatest : number.exponent.val ≠ 2047 := Nat.ne_of_lt (of_decide_eq_true finite)
  rw [Double.textList, if_neg notGreatest, Double.settled]
  by_cases zero : number.significand = 0
  · rw [if_pos zero, if_pos zero]
    have whole : integer? ('0' :: rest) = some (['0'], rest) := rfl
    exact number?_of_parts false whole (fraction?_of_unpointed ends.unpointed)
      (exponent?_of_ends ends)
  · rw [if_neg zero, if_neg zero]
    have positive := Nat.pos_of_ne_zero zero
    have attracts := Double.attracts_shortest positive
    have digitsPositive : 0 < number.interval.shortest.digits := by
      have valuePositive := attracts.pos positive
      rw [Double.Decimal.value] at valuePositive
      exact_mod_cast pos_of_mul_pos_left valuePositive (by positivity)
    obtain ⟨significand, power, read, value⟩ := exists_number?_layout number.negative
      (leads_shortestDigits digitsPositive) ends number.shortestDigits.2
    have sameValue : significand * 10 ^ power = number.interval.shortest.value :=
      value.trans (value_shortestDigits number.interval.shortest)
    rw [← sameValue] at attracts
    rw [Double.ofDecimal_eq finite positive attracts] at read
    rw [List.append_assoc]
    exact read

end Value.Reader

end Montage
