/-!
# Binary floating-point numbers

Offsets and the numbers of scene files are binary floating-point numbers of
64 bits.  They are held by their three fields, so equality is decidable and
every number but not-a-number has one representation.
-/

namespace Montage

/-- A 64-bit binary floating-point number: its sign, its biased exponent and
the 52 bits of its fraction. -/
structure Double where
  negative : Bool
  exponent : Fin 2048
  fraction : Fin 4503599627370496
deriving DecidableEq, Repr

namespace Double

def zero (negative : Bool) : Double := ⟨negative, 0, 0⟩

def infinity (negative : Bool) : Double := ⟨negative, ⟨2047, by decide⟩, 0⟩

/-- The result of no meaningful computation. -/
def nan : Double := ⟨false, ⟨2047, by decide⟩, 2251799813685248⟩

instance : Inhabited Double := ⟨zero false⟩

/-- Finite numbers have an exponent below the greatest one. -/
def isFinite (number : Double) : Bool := number.exponent.val < 2047

/-- The number written by all fraction bits, and by the implicit leading one
unless the exponent is the least. -/
def significand (number : Double) : Nat :=
  if number.exponent.val = 0 then number.fraction.val
  else number.fraction.val + 4503599627370496

/-- A finite number's magnitude is `significand * 2 ^ scale`. -/
def scale (number : Double) : Int :=
  (max number.exponent.val 1 : Nat) - 1075

/-- The number whose magnitude is the given one in the order of magnitudes;
past the finite ones comes infinity. -/
def ofRank (negative : Bool) (rank : Nat) : Double :=
  if small : rank < 2047 * 4503599627370496 then
    ⟨negative,
      ⟨rank / 4503599627370496, by omega⟩,
      ⟨rank % 4503599627370496, Nat.mod_lt _ (by decide)⟩⟩
  else infinity negative

/-- The quotient rounded to the nearest integer, a half going to the even
neighbour. -/
def roundQuotient (numerator denominator : Nat) : Nat :=
  let quotient := numerator / denominator
  let twice := 2 * (numerator % denominator)
  if twice > denominator ∨ (twice = denominator ∧ quotient % 2 = 1) then
    quotient + 1
  else quotient

/-- The number nearest to a quotient of naturals, a tie going to the even
significand.  The rank absorbs a carry out of the significand. -/
def ofQuotient (negative : Bool) (numerator denominator : Nat) : Double :=
  if numerator = 0 then zero negative
  else
    let width : Int := (numerator.log2 : Int) - denominator.log2
    let fits : Bool :=
      if 0 ≤ width then denominator * Nat.pow 2 width.toNat ≤ numerator
      else denominator ≤ numerator * Nat.pow 2 (-width).toNat
    let leading := if fits then width else width - 1
    let scale := max (leading - 52) (-1074)
    let significand :=
      if 0 ≤ scale then roundQuotient numerator (denominator * Nat.pow 2 scale.toNat)
      else roundQuotient (numerator * Nat.pow 2 (-scale).toNat) denominator
    ofRank negative (significand + (scale + 1074).toNat * 4503599627370496)

/-- The number nearest to `digits * 10 ^ power`.  A power so great or so small
that the answer is infinity or zero is settled without computing it. -/
def ofDecimal (negative : Bool) (digits : Nat) (power : Int) : Double :=
  if digits = 0 then zero negative
  else if 400 < power then infinity negative
  else if (digits.log2 : Int) + 1 + 3 * power < -1080 then zero negative
  else if 0 ≤ power then ofQuotient negative (digits * Nat.pow 10 power.toNat) 1
  else ofQuotient negative digits (Nat.pow 10 (-power).toNat)

def ofNatural (natural : Nat) : Double := ofDecimal false natural 0

theorem isFinite_zero (negative : Bool) : (zero negative).isFinite = true := by
  cases negative <;> decide

end Double

end Montage
