/-!
# Shortest decimals

The shortest decimal that reads back as a given double.  A double is m · 2^q; the reals that
round to it form an interval around it, its ends included if m is even.  Of the decimal grids
with one, two, … digits the first wins that has a point in the interval, and of two points on it
the nearer one, the even one at a tie.  A value's two neighbours on a grid are the only points
that need a test: if any point of the grid lies in the interval, one of them does.

All of this is exact arithmetic on natural numbers.  Above it stands the written form: a point
and at least one digit behind it while the leading digit stands for 10⁻⁵ to 10¹⁵, an exponent
with its sign otherwise.
-/

namespace DownloadCache.Decimal

set_option autoImplicit false

/-! ## Doubles as exact fractions -/

/-- The values that the fraction of a double can have, 2⁵² of them. -/
def fractionCount : Nat := 0x10000000000000

/-- The values that the exponent of a double can have, 2¹¹ of them. -/
def exponentCount : Nat := 0x800

/-- The bit that holds the sign of a double, 2⁶³. -/
def signBit : Nat := 0x8000000000000000

/-- A positive double and the ends of the interval that rounds to it, over one denominator. -/
structure Rounding where
  low : Nat
  value : Nat
  high : Nat
  denominator : Nat
  /-- Whether the ends round to the double too. -/
  closed : Bool

/-- The interval of a double given by its bits, the sign left aside. -/
def Rounding.ofBits (bits : Nat) : Rounding :=
  let fraction := bits % fractionCount
  let exponent := bits / fractionCount % exponentCount
  let significand := if exponent = 0 then fraction else fraction + fractionCount
  let power : Int := if exponent = 0 then -1076 else (exponent : Int) - 1077
  let below := if fraction = 0 ∧ exponent > 1 then 1 else 2
  let factor := Nat.pow 2 power.toNat
  { low := (4 * significand - below) * factor
    value := 4 * significand * factor
    high := (4 * significand + 2) * factor
    denominator := Nat.pow 2 (-power).toNat
    closed := significand % 2 = 0 }

/-- The exponent of the leading decimal digit of a positive fraction. -/
def leadingExponent (numerator denominator : Nat) : Int :=
  if denominator ≤ numerator then
    ((Nat.toDigits 10 (numerator / denominator)).length : Int) - 1
  else
    match (List.range 400).find? fun places => denominator ≤ numerator * Nat.pow 10 places with
    | some places => -(places : Int)
    | none => 0

/-! ## Grids -/

/-- A decimal: digits times a power of ten. -/
structure Scientific where
  digits : Nat
  exponent : Int

/-- The point of the grid of so many digits that rounds to the double, if there is one. -/
def Rounding.onGrid? (rounding : Rounding) (leading : Int) (count : Nat) : Option Scientific :=
  let exponent : Int := leading - (count : Int) + 1
  let up := Nat.pow 10 exponent.toNat * rounding.denominator
  let down := Nat.pow 10 (-exponent).toNat
  let below := rounding.value * down / up
  let fits (digits : Nat) : Bool :=
    let point := digits * up
    if rounding.closed then rounding.low * down ≤ point && point ≤ rounding.high * down
    else rounding.low * down < point && point < rounding.high * down
  let toBelow := rounding.value * down - below * up
  let toAbove := (below + 1) * up - rounding.value * down
  let belowIsNearer := toBelow < toAbove || (toBelow == toAbove && below % 2 == 0)
  match fits below, fits (below + 1) with
  | true, true => some ⟨if belowIsNearer then below else below + 1, exponent⟩
  | true, false => some ⟨below, exponent⟩
  | false, true => some ⟨below + 1, exponent⟩
  | false, false => none

/-- The shortest decimal of a positive double; seventeen digits always suffice. -/
def Rounding.shortest (rounding : Rounding) : Scientific :=
  let leading := leadingExponent rounding.value rounding.denominator
  ((List.range 17).findSome? fun count => rounding.onGrid? leading (count + 1)).getD ⟨0, 0⟩

/-! ## Written forms -/

/-- The digits without zeros at the end, and the exponent of the first one. -/
def Scientific.normal (decimal : Scientific) : List Char × Int :=
  let all := Nat.toDigits 10 decimal.digits
  ((all.reverse.dropWhile (· == '0')).reverse, decimal.exponent + (all.length : Int) - 1)

/-- The written form of digits whose first one stands for a power of ten. -/
def writtenDecimal (digits : List Char) (leading : Int) : List Char :=
  if 0 ≤ leading ∧ leading ≤ 15 then
    let whole := leading.toNat + 1
    let padded := digits ++ List.replicate (whole - digits.length) '0'
    let behind := padded.drop whole
    padded.take whole ++ '.' :: (if behind.isEmpty then ['0'] else behind)
  else if -5 ≤ leading ∧ leading < 0 then
    '0' :: '.' :: (List.replicate ((-leading).toNat - 1) '0' ++ digits)
  else
    let mantissa := match digits with
      | [] => ['0']
      | [digit] => [digit]
      | digit :: rest => digit :: '.' :: rest
    let sign := if leading < 0 then '-' else '+'
    mantissa ++ 'e' :: sign :: Nat.toDigits 10 leading.natAbs

/-- The shortest text that reads back as the finite double with these bits. -/
def shortestText (bits : UInt64) : String :=
  let magnitude := bits.toNat % signBit
  let body :=
    if magnitude = 0 then ['0', '.', '0']
    else
      let (digits, leading) := (Rounding.ofBits magnitude).shortest.normal
      writtenDecimal digits leading
  String.ofList (if bits.toNat < signBit then body else '-' :: body)

end DownloadCache.Decimal
