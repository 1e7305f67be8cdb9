import AnnotationDefaults.Number.Binary
import AnnotationDefaults.Number.Integer

set_option autoImplicit false

/-!
Decimal literals and their correctly rounded binary values. A literal is a
coefficient and a power of ten; its value at a format is the body nearest to that
exact product. Float tokens add a sign, infinities and not-a-number.
-/

namespace AnnotationDefaults

/-- The number `coefficient * 10 ^ exponent`. -/
structure Decimal where
  coefficient : Nat
  exponent : Int
  deriving DecidableEq, Repr

namespace Decimal

attribute [local instance] corePow

def digitCount (value : Nat) : Nat := (Nat.toDigits 10 value).length

/-- The exact rounding, whatever the size of the power of ten. -/
def exactBody (format : BinaryFormat) (value : Decimal) : Nat :=
  match value.exponent with
  | .ofNat power => format.nearest (value.coefficient * 10 ^ power * 2 ^ format.scale) 1
  | .negSucc below =>
      format.nearest (value.coefficient * 2 ^ format.scale) (10 ^ (below + 1))

/-- The body nearest to a decimal. Powers that put the number beyond every finite
body, or below half of every unit, are decided before any power is computed. -/
def body (format : BinaryFormat) (value : Decimal) : Nat :=
  let leading := value.exponent + digitCount value.coefficient
  if value.coefficient = 0 then 0
  else if (format.scale : Int) < leading then format.infinity
  else if leading < -(format.scale : Int) then 0
  else value.exactBody format

def ofDigits (digits : List Nat) : Nat := digits.foldl (fun total digit => 10 * total + digit) 0

def spanDigits : List Char → List Nat × List Char
  | [] => ([], [])
  | symbol :: rest =>
      match Integer.digit? symbol with
      | none => ([], symbol :: rest)
      | some digit =>
          let (digits, rest) := spanDigits rest
          (digit :: digits, rest)

def ofParts (whole fraction : List Nat) (power : Int) : Decimal :=
  ⟨ofDigits (whole ++ fraction), power - fraction.length⟩

/-- The power written after an exponent mark: an optional sign and one digit or
more, to the end of the text. -/
def readPower? (symbols : List Char) : Option Int :=
  let (negative, symbols) := match symbols with
    | '-' :: rest => (true, rest)
    | '+' :: rest => (false, rest)
    | _ => (false, symbols)
  match spanDigits symbols with
  | (digit :: digits, []) =>
      let power : Int := ofDigits (digit :: digits)
      some (if negative then -power else power)
  | _ => none

/-- Reads an unsigned literal: digits with at most one point and one digit at
least, then an optional power of ten. -/
def read? (symbols : List Char) : Option Decimal :=
  let (whole, rest) := spanDigits symbols
  let (fraction, rest) := match rest with
    | '.' :: rest => spanDigits rest
    | _ => ([], rest)
  if whole.isEmpty && fraction.isEmpty then none
  else match rest with
    | [] => some (ofParts whole fraction 0)
    | mark :: rest =>
        if mark = 'e' ∨ mark = 'E' then
          (readPower? rest).map (ofParts whole fraction)
        else none

end Decimal

namespace FloatToken

inductive Fault where
  | empty
  | invalid
  deriving DecidableEq, Repr

def Fault.message : Fault → String
  | .empty => "cannot parse float from empty string"
  | .invalid => "invalid float literal"

def readBody? (format : BinaryFormat) (symbols : List Char) : Option Nat :=
  match Decimal.read? symbols with
  | some literal => some (literal.body format)
  | none =>
      let name := String.ofList (symbols.map Char.toLower)
      if name = "inf" ∨ name = "infinity" then some format.infinity
      else if name = "nan" then some format.nan
      else none

def read (format : BinaryFormat) (token : String) : Except Fault Nat :=
  match token.toList with
  | [] => .error .empty
  | symbol :: rest =>
      let body :=
        if symbol = '-' then (readBody? format rest).map (format.withSign true)
        else if symbol = '+' then readBody? format rest
        else readBody? format (symbol :: rest)
      match body with
      | some bits => .ok bits
      | none => .error .invalid

end FloatToken

end AnnotationDefaults
