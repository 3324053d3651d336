import Montage.Number.Basic

/-!
# Shortest decimal text of a number

A number is written with the fewest significant digits that read back as the
same number; among equally short ones the nearest to it is taken, and a tie
goes to the even digit.  Positional notation is used from a millionth up to
twenty-one integer digits, scientific notation outside.
-/

namespace Montage

namespace Double

/-- A positive number and the ends of the interval of reals that round to it,
as naturals over one denominator.  The ends belong to the interval when the
significand is even. -/
structure Interval where
  lower : Nat
  value : Nat
  upper : Nat
  denominator : Nat
  closed : Bool
deriving DecidableEq, Repr

/-- The interval of a finite positive number.  The step below a power of two
is half the step above it. -/
def interval (number : Double) : Interval :=
  let significand := number.significand
  let atPower := number.fraction.val = 0 ∧ 1 < number.exponent.val
  let below := if atPower then 1 else 2
  let quarter := number.scale - 2
  let factor := Nat.pow 2 quarter.toNat
  { lower := (4 * significand - below) * factor
    value := 4 * significand * factor
    upper := (4 * significand + 2) * factor
    denominator := Nat.pow 2 (-quarter).toNat
    closed := significand % 2 = 0 }

/-- The place of the leading decimal digit: the value is below
`10 ^ leadingPlace` and at least a tenth of it. -/
def Interval.leadingPlace (bounds : Interval) : Int :=
  ((Nat.toDigits 10 (bounds.value * Nat.pow 10 350 / bounds.denominator)).length : Int) - 350

/-- A decimal `digits * 10 ^ power`. -/
structure Decimal where
  digits : Nat
  power : Int
deriving DecidableEq, Repr

def Interval.contains (bounds : Interval) (decimal : Decimal) : Bool :=
  let scaled := decimal.digits * Nat.pow 10 decimal.power.toNat * bounds.denominator
  let unit := Nat.pow 10 (-decimal.power).toNat
  if bounds.closed then bounds.lower * unit ≤ scaled ∧ scaled ≤ bounds.upper * unit
  else bounds.lower * unit < scaled ∧ scaled < bounds.upper * unit

/-- The decimals with the given least place on both sides of the value. -/
def Interval.neighbours (bounds : Interval) (power : Int) : Decimal × Decimal :=
  let below :=
    bounds.value * Nat.pow 10 (-power).toNat / (bounds.denominator * Nat.pow 10 power.toNat)
  (⟨below, power⟩, ⟨below + 1, power⟩)

/-- The lower of two neighbours is nearer to the value, or equally near and
even. -/
def Interval.prefersLower (bounds : Interval) (power : Int) : Bool :=
  let scaled := bounds.value * Nat.pow 10 (-power).toNat
  let unit := bounds.denominator * Nat.pow 10 power.toNat
  let twice := 2 * (scaled % unit)
  twice < unit || (twice == unit && scaled / unit % 2 == 0)

/-- The decimal with the given least place that reads back as the value, the
better one if both neighbours do. -/
def Interval.candidate? (bounds : Interval) (power : Int) : Option Decimal :=
  let (below, above) := bounds.neighbours power
  match bounds.contains below, bounds.contains above with
  | true, true => some (if bounds.prefersLower power then below else above)
  | true, false => some below
  | false, true => some above
  | false, false => none

/-- The first hit among the grids of one, two, … digits.  Seventeen digits
always suffice. -/
def Interval.shortest (bounds : Interval) : Decimal :=
  let place := bounds.leadingPlace
  let counts : List Nat := (List.range 17).map (· + 1)
  (counts.findSome? fun count => bounds.candidate? (place - (count : Nat))).getD
    (bounds.neighbours (place - 17)).1

def dropTrailingZeros (digits : List Char) : List Char :=
  (digits.reverse.dropWhile (· == '0')).reverse

/-- Writes digits `d₁d₂…dₖ` whose value is `0.d₁d₂…dₖ * 10 ^ place`. -/
def layout (digits : List Char) (place : Int) : List Char :=
  let count : Int := digits.length
  if count ≤ place ∧ place ≤ 21 then
    digits ++ List.replicate (place - count).toNat '0'
  else if 0 < place ∧ place ≤ 21 then
    digits.take place.toNat ++ '.' :: digits.drop place.toNat
  else if -6 < place ∧ place ≤ 0 then
    '0' :: '.' :: (List.replicate (-place).toNat '0' ++ digits)
  else
    let exponent := place - 1
    let sign := if exponent < 0 then '-' else '+'
    let fraction := if digits.length ≤ 1 then [] else '.' :: digits.drop 1
    digits.take 1 ++ fraction ++ 'e' :: sign :: Nat.toDigits 10 exponent.natAbs

/-- The digits of the shortest decimal, and the place of the first one. -/
def shortestDigits (number : Double) : List Char × Int :=
  let decimal := number.interval.shortest
  let digits := Nat.toDigits 10 decimal.digits
  (dropTrailingZeros digits, decimal.power + (digits.length : Nat))

/-- The characters of a number's text.  Both zeros are written `0`. -/
def textList (number : Double) : List Char :=
  if number.exponent.val = 2047 then
    if number.fraction.val = 0 then
      (if number.negative then ['-'] else []) ++ "Infinity".toList
    else "NaN".toList
  else if number.significand = 0 then ['0']
  else
    let (digits, place) := number.shortestDigits
    (if number.negative then ['-'] else []) ++ layout digits place

def text (number : Double) : String := String.ofList number.textList

end Double

end Montage
