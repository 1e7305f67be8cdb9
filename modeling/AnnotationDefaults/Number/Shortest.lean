import AnnotationDefaults.Number.Decimal

set_option autoImplicit false

/-!
The shortest decimal that reads back. For a growing number of digits the two
neighbours of the value on that decimal grid are tried, and a neighbour counts
only if `Decimal.body` reads it back as the same body; the first grid with a hit
wins and of two hits the nearer. A body for which no grid up to the format's
limit has a hit is written out exactly.
-/

namespace AnnotationDefaults

inductive DecimalTie where
  | upward
  | toEven
  deriving DecidableEq, Repr

namespace Decimal

attribute [local instance] corePow

/-- The number whose `coefficient` has no trailing carry: ten to the `digits` is
written as one. -/
def ofGrid (digits : Nat) (coefficient : Nat) (exponent : Int) : Decimal :=
  if coefficient = 10 ^ digits then ⟨1, exponent + digits⟩ else ⟨coefficient, exponent⟩

def scaledRatio (format : BinaryFormat) (body : Nat) (exponent : Int) : Nat × Nat :=
  let units := format.magnitude body
  match exponent with
  | .ofNat power => (units, 2 ^ format.scale * 10 ^ power)
  | .negSucc below => (units * 10 ^ (below + 1), 2 ^ format.scale)

/-- The exponent of the leading decimal digit of a positive finite body. The
value is first multiplied by ten to the `scale`, which exceeds one unit. -/
def leadingExponent (format : BinaryFormat) (body : Nat) : Int :=
  let (numerator, denominator) := scaledRatio format body (-(format.scale : Int))
  (digitCount (numerator / denominator) : Int) - 1 - format.scale

/-- The neighbour on the grid of `digits` digits that reads back, if any; the
nearer one if both do. The leading digit of the value has the exponent `leading`. -/
def onGrid? (tie : DecimalTie) (format : BinaryFormat) (body : Nat) (leading : Int)
    (digits : Nat) : Option Decimal :=
  let exponent := leading - (digits : Int) + 1
  let (numerator, denominator) := scaledRatio format body exponent
  let below := numerator / denominator
  let lower := ofGrid digits below exponent
  let upper := ofGrid digits (below + 1) exponent
  let twice := 2 * (numerator % denominator)
  let takeUpper := denominator < twice || (twice == denominator &&
    match tie with
    | .upward => true
    | .toEven => below % 2 == 1)
  match lower.body format == body, upper.body format == body with
  | true, true => some (if takeUpper then upper else lower)
  | true, false => some lower
  | false, true => some upper
  | false, false => none

/-- The exact value of a body: units are a power of five over a power of ten. -/
def exactOf (format : BinaryFormat) (body : Nat) : Decimal :=
  ⟨format.magnitude body * 5 ^ format.scale, -(format.scale : Int)⟩

def digitLimit (format : BinaryFormat) : Nat := (format.fractionBits + 1) * 3 / 10 + 2

def shortest (tie : DecimalTie) (format : BinaryFormat) (body : Nat) : Decimal :=
  if body = 0 then ⟨0, 0⟩
  else
    let leading := leadingExponent format body
    let counts := (List.range (digitLimit format)).map (· + 1)
    (counts.findSome? (onGrid? tie format body leading)).getD (exactOf format body)

end Decimal

end AnnotationDefaults
