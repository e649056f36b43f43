/-!
# The shortest decimal that reads back

A finite binary floating point number stands for every real number that rounds
to it: an interval around its value whose ends belong to it when the significand
is even. `shortest` picks, among the decimals in that interval, one with the
fewest significant digits, and among those the nearest to the value; a parameter
says which of two equally near decimals is taken.

All arithmetic is exact. The value is a quotient of two natural numbers, and for
one, two, … seventeen digits only the two neighbours of the value on the grid of
that many digits need to be tried: if any point of a grid lies in the interval,
one of these does.
-/

namespace StagedQuery.Decimal

/-- A natural number of significant digits times a power of ten. -/
structure Scaled where
  digits : Nat
  exponent : Int
  deriving DecidableEq, Repr

/-- Which of two equally near decimals is taken. -/
inductive Tie where
  | toEven
  | away
  deriving DecidableEq, Repr

/-- A positive binary number `significand * 2 ^ exponent`, and whether the gap
    below it is half as wide as the gap above. -/
structure Binary where
  significand : Nat
  exponent : Int
  narrowBelow : Bool
  deriving DecidableEq, Repr

/-- The magnitude that the bits of a finite floating point number describe. -/
def Binary.ofBits (bits : UInt64) : Binary :=
  let fraction : Nat := bits.toNat % (1 <<< 52)
  let biased : Nat := (bits.toNat >>> 52) % (1 <<< 11)
  if biased = 0 then ⟨fraction, -1074, false⟩
  else ⟨(1 <<< 52) + fraction, (biased : Int) - 1075, fraction = 0 && 1 < biased⟩

/-- A quotient of natural numbers. -/
structure Ratio where
  numerator : Nat
  denominator : Nat

/-- The quotient `number * base ^ exponent`. -/
def Ratio.power (number base : Nat) (exponent : Int) : Ratio :=
  match exponent with
  | .ofNat positive => ⟨number * Nat.pow base positive, 1⟩
  | .negSucc less => ⟨number, Nat.pow base (less + 1)⟩

/-- The exponent of the first decimal digit of a positive quotient. -/
def Ratio.leadingExponent (ratio : Ratio) : Int :=
  if ratio.denominator ≤ ratio.numerator then
    ((Nat.toDigits 10 (ratio.numerator / ratio.denominator)).length : Int) - 1
  else
    let inverse := (ratio.denominator - 1) / ratio.numerator
    Int.neg (Nat.toDigits 10 inverse).length

/-- Whether `4 * digits * 10 ^ grid` lies in the interval of a binary number,
    whose value is four quarters of its unit. -/
def Binary.admits (binary : Binary) (digits : Nat) (grid : Int) : Bool :=
  let point := Ratio.power (4 * digits) 10 grid
  let unit := Ratio.power 1 2 binary.exponent
  let low := 4 * binary.significand - (if binary.narrowBelow then 1 else 2)
  let high := 4 * binary.significand + 2
  let scaled := point.numerator * unit.denominator
  let lowest := low * unit.numerator * point.denominator
  let highest := high * unit.numerator * point.denominator
  if binary.significand % 2 = 0 then lowest ≤ scaled && scaled ≤ highest
  else lowest < scaled && scaled < highest

/-- The admitted neighbour of the value on one grid, the nearer one if both are
    admitted. -/
def Binary.onGrid (tie : Tie) (binary : Binary) (grid : Int) : Option Nat :=
  let value := Ratio.power binary.significand 2 binary.exponent
  let step := Ratio.power 1 10 grid
  let numerator := value.numerator * step.denominator
  let denominator := value.denominator * step.numerator
  let below := numerator / denominator
  let twiceRest := 2 * (numerator % denominator)
  match binary.admits below grid, binary.admits (below + 1) grid with
  | true, true =>
    if twiceRest < denominator then some below
    else if denominator < twiceRest then some (below + 1)
    else match tie with
      | .away => some (below + 1)
      | .toEven => some (if below % 2 = 0 then below else below + 1)
  | true, false => some below
  | false, true => some (below + 1)
  | false, false => none

/-- Drops trailing zeros, of which there are at most `bound`. -/
def Scaled.trim (bound : Nat) (scaled : Scaled) : Scaled :=
  match bound with
  | 0 => scaled
  | bound + 1 =>
    if scaled.digits ≠ 0 ∧ scaled.digits % 10 = 0 then
      Scaled.trim bound ⟨scaled.digits / 10, scaled.exponent + 1⟩
    else scaled

/-- Tries the grids of `tried`, `tried + 1`, … digits, `remaining` of them. -/
def Binary.shortestFrom (tie : Tie) (binary : Binary) (leading : Int) (tried : Nat) :
    (remaining : Nat) → Scaled
  | 0 => ⟨0, 0⟩
  | remaining + 1 =>
    let grid := leading - (tried : Int) + 1
    match binary.onGrid tie grid with
    | some digits => Scaled.trim 18 ⟨digits, grid⟩
    | none => binary.shortestFrom tie leading (tried + 1) remaining

/-- The shortest decimal that reads back as a positive binary number. Seventeen
    digits always suffice. -/
def Binary.shortest (tie : Tie) (binary : Binary) : Scaled :=
  let value := Ratio.power binary.significand 2 binary.exponent
  binary.shortestFrom tie value.leadingExponent 1 17

end StagedQuery.Decimal
