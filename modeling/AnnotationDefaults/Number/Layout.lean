import AnnotationDefaults.Number.Shortest

set_option autoImplicit false

/-!
Layouts of floating-point text. One record says which decimal exponents are
written positionally, whether a whole number keeps a zero fraction, whether a
positive power of ten carries a sign and where a tie between shortest decimals
goes. Outputs of the library differ only in such records.
-/

namespace AnnotationDefaults

structure FloatLayout where
  /-- Least and greatest exponent of the leading digit written positionally;
  without bounds every number is. -/
  positional : Option (Int × Int)
  /-- A whole number in positional form ends in a zero fraction. -/
  keepsFraction : Bool
  /-- A power of ten that is not negative has a plus sign. -/
  signsPower : Bool
  tie : DecimalTie
  deriving DecidableEq, Repr

namespace FloatLayout

def digits (value : Nat) : List Char := Nat.toDigits 10 value

def positionalText (layout : FloatLayout) (value : Decimal) : List Char :=
  let written := digits value.coefficient
  let whole := if layout.keepsFraction then ['.', '0'] else []
  match value.exponent with
  | .ofNat power => written ++ List.replicate power '0' ++ whole
  | .negSucc below =>
      let places := below + 1
      if places < written.length then
        written.take (written.length - places) ++ '.' :: written.drop (written.length - places)
      else '0' :: '.' :: List.replicate (places - written.length) '0' ++ written

def scientificText (layout : FloatLayout) (value : Decimal) : List Char :=
  let written := digits value.coefficient
  let power := value.exponent + (written.length - 1 : Nat)
  let mantissa := match written with
    | first :: second :: rest => first :: '.' :: second :: rest
    | short => short
  let sign := if layout.signsPower && decide (0 ≤ power) then ['+'] else []
  mantissa ++ 'e' :: sign ++ (Integer.render power).toList

def decimalText (layout : FloatLayout) (value : Decimal) : List Char :=
  let leading := value.exponent + ((digits value.coefficient).length - 1 : Nat)
  match layout.positional with
  | none => layout.positionalText value
  | some (least, greatest) =>
      if value.coefficient = 0 ∨ (least ≤ leading ∧ leading ≤ greatest) then
        layout.positionalText value
      else layout.scientificText value

def text (layout : FloatLayout) (format : BinaryFormat) (bits : Nat) : String :=
  if format.isNaN bits then "NaN"
  else
    let sign := if format.isNegative bits then ['-'] else []
    let body := format.body bits
    let magnitude := if body = format.infinity then ['i', 'n', 'f']
      else layout.decimalText (Decimal.shortest layout.tie format body)
    String.ofList (sign ++ magnitude)

end FloatLayout

end AnnotationDefaults
