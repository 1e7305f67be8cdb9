import AnnotationDefaults.Number.Integer

set_option autoImplicit false

/-!
Binary floating-point numbers as bit patterns. A format has a number of fraction
bits and of exponent bits; a pattern is a sign bit above a body. Finite bodies
denote whole multiples of the least positive value, called units, so every
magnitude here is a natural number of units and no negative power of two occurs.
`nearest` is the one rounding of the library: to the nearest body, a tie to the
even one, and to infinity beyond the largest finite body.
-/

namespace AnnotationDefaults

structure BinaryFormat where
  fractionBits : Nat
  exponentBits : Nat
  deriving DecidableEq, Repr

namespace BinaryFormat

attribute [local instance] corePow

def single : BinaryFormat := ⟨23, 8⟩

def double : BinaryFormat := ⟨52, 11⟩

/-- One unit is two to the minus `scale`. -/
def scale (format : BinaryFormat) : Nat :=
  2 ^ (format.exponentBits - 1) + format.fractionBits - 2

def signWeight (format : BinaryFormat) : Nat :=
  2 ^ (format.exponentBits + format.fractionBits)

/-- The body of infinity; larger bodies are not numbers. -/
def infinity (format : BinaryFormat) : Nat :=
  (2 ^ format.exponentBits - 1) * 2 ^ format.fractionBits

def body (format : BinaryFormat) (bits : Nat) : Nat := bits % format.signWeight

def isNegative (format : BinaryFormat) (bits : Nat) : Bool :=
  format.signWeight ≤ bits

def isNaN (format : BinaryFormat) (bits : Nat) : Bool :=
  format.infinity < format.body bits

/-- The quiet pattern that stands for every result that is no number. -/
def nan (format : BinaryFormat) : Nat :=
  format.infinity + 2 ^ (format.fractionBits - 1)

def withSign (format : BinaryFormat) (negative : Bool) (body : Nat) : Nat :=
  if negative then format.signWeight + body else body

def magnitude (format : BinaryFormat) (body : Nat) : Nat :=
  let hidden := 2 ^ format.fractionBits
  if body < hidden then body
  else (hidden + body % hidden) * 2 ^ (body / hidden - 1)

/-- The quotient of two naturals to the nearest natural, a tie to the even one. -/
def divideToEven (numerator denominator : Nat) : Nat :=
  let quotient := numerator / denominator
  let twice := 2 * (numerator % denominator)
  if twice < denominator then quotient
  else if denominator < twice then quotient + 1
  else quotient + quotient % 2

/-- How many bits of the quotient `numerator / denominator`, counted in units,
lie below the fraction that a body can hold. -/
def droppedBits (format : BinaryFormat) (numerator denominator : Nat) : Nat :=
  (numerator / denominator).log2 - format.fractionBits

/-- The body nearest to `numerator / denominator` units. A significand that
rounds up to the next power of two carries into the exponent by itself. -/
def nearest (format : BinaryFormat) (numerator denominator : Nat) : Nat :=
  let dropped := format.droppedBits numerator denominator
  let significand := divideToEven numerator (denominator * 2 ^ dropped)
  min (significand + dropped * 2 ^ format.fractionBits) format.infinity

end BinaryFormat

end AnnotationDefaults
