import AnnotationDefaults.Number.Layout

set_option autoImplicit false

/-!
JSON numbers. A literal without a fraction or a power of ten that fits sixty-four
bits, signed or not, is kept as an integer; every other literal, and minus zero,
becomes a double at machine precision. That takes a significand of at most
sixty-four bits and one scaling by a tabulated power of ten, each step rounded;
it is not always the double nearest to the literal.
-/

namespace AnnotationDefaults.Json

/-- A number as a document holds it: an integer, or the bits of a double. -/
inductive Number where
  | integer (value : Int)
  | double (bits : Nat)
  deriving DecidableEq, Repr

structure NumberLiteral where
  negative : Bool
  whole : List Nat
  fraction : Option (List Nat)
  power : Option Int
  deriving DecidableEq, Repr

/-- JSON writes doubles positionally from 1e-5 up to below 1e16, keeps a zero
fraction, signs a positive power, and sends a tie to the even digit. -/
def numberLayout : FloatLayout := ⟨some (-5, 15), true, true, .toEven⟩

namespace Number

attribute [local instance] corePow

def text : Number → String
  | .integer value => Integer.render value
  | .double bits => numberLayout.text .double bits

/-- The double of a tabulated power of ten, in units. -/
def powerOfTen (power : Nat) : Nat :=
  BinaryFormat.double.magnitude
    (BinaryFormat.double.nearest (10 ^ power * 2 ^ BinaryFormat.double.scale) 1)

def scaleUp (body power : Nat) : Nat :=
  let format := BinaryFormat.double
  format.nearest (format.magnitude body * powerOfTen power) (2 ^ format.scale)

def scaleDown (body power : Nat) : Nat :=
  let format := BinaryFormat.double
  format.nearest (format.magnitude body * 2 ^ format.scale) (powerOfTen power)

def greatestPower : Nat := 308

/-- The body of `significand * 10 ^ power`; none if it exceeds every double. A
power below the table is divided out in two steps, which leaves nothing of a
sixty-four-bit significand beyond twice the table. -/
def scaled? (significand : Nat) (power : Int) : Option Nat :=
  let format := BinaryFormat.double
  let start := format.nearest (significand * 2 ^ format.scale) 1
  if significand = 0 then some 0
  else match power with
    | .ofNat up =>
        if greatestPower < up then none
        else
          let body := scaleUp start up
          if body = format.infinity then none else some body
    | .negSucc below =>
        let down := below + 1
        if down ≤ greatestPower then some (scaleDown start down)
        else if down ≤ 2 * greatestPower then
          some (scaleDown (scaleDown start greatestPower) (down - greatestPower))
        else some 0

/-- Folds digits into a significand until one no longer fits sixty-four bits;
returns the significand and the digits that were left. -/
def foldSignificand (significand : Nat) : List Nat → Nat × List Nat
  | [] => (significand, [])
  | digit :: rest =>
      if significand * 10 + digit < UInt64.size then foldSignificand (significand * 10 + digit) rest
      else (significand, digit :: rest)

/-- The double of a literal: whole digits that do not fit raise the power, and
fraction digits lower it as far as they fit and are dropped from there on. -/
def double? (literal : NumberLiteral) : Option Number :=
  let (whole, unread) := foldSignificand 0 literal.whole
  let fraction := literal.fraction.getD []
  let (significand, dropped) := foldSignificand whole fraction
  let power := literal.power.getD 0 + unread.length - (fraction.length - dropped.length : Nat)
  (scaled? significand power).map fun body =>
    .double (BinaryFormat.double.withSign literal.negative body)

def ofLiteral? (literal : NumberLiteral) : Option Number :=
  let magnitude := Decimal.ofDigits literal.whole
  if literal.fraction.isNone && literal.power.isNone then
    if literal.negative then
      if 0 < magnitude ∧ magnitude ≤ UInt64.size / 2 then some (.integer (-(magnitude : Int)))
      else double? literal
    else if magnitude < UInt64.size then some (.integer magnitude)
    else double? literal
  else double? literal

end Number

end AnnotationDefaults.Json
