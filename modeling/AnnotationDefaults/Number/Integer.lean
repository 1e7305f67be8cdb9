set_option autoImplicit false

/-!
Signed decimal tokens of a fixed width: an optional sign and decimal digits. The
range is checked as each digit is folded in, from the left, so of a digit out of
range and a character that is no digit the earlier one is reported.
-/

namespace AnnotationDefaults

/-- Powers as the core library defines them, whichever other instances are known. -/
@[reducible] def corePow {α : Type} [NatPow α] : Pow α Nat := instPowNat

namespace Integer

attribute [local instance] corePow

inductive Fault where
  | empty
  | invalidDigit
  | tooLarge
  | tooSmall
  deriving DecidableEq, Repr

def Fault.message : Fault → String
  | .empty => "cannot parse integer from empty string"
  | .invalidDigit => "invalid digit found in string"
  | .tooLarge => "number too large to fit in target type"
  | .tooSmall => "number too small to fit in target type"

/-- Numbers of `width` bits in two's complement. -/
def Fits (width : Nat) (value : Int) : Prop :=
  -(2 ^ (width - 1) : Int) ≤ value ∧ value < (2 ^ (width - 1) : Int)

instance (width : Nat) (value : Int) : Decidable (Fits width value) :=
  inferInstanceAs (Decidable (_ ∧ _))

def digit? (symbol : Char) : Option Nat :=
  if '0' ≤ symbol ∧ symbol ≤ '9' then some (symbol.toNat - 48) else none

/-- Folds digits into `total`, away from zero in the direction of the sign. -/
def foldDigits (width : Nat) (negative : Bool) (total : Int) : List Char → Except Fault Int
  | [] => .ok total
  | symbol :: rest =>
      match digit? symbol with
      | none => .error .invalidDigit
      | some digit =>
          let next := if negative then total * 10 - digit else total * 10 + digit
          if Fits width next then foldDigits width negative next rest
          else .error (if negative then .tooSmall else .tooLarge)

def read (width : Nat) (token : String) : Except Fault Int :=
  match token.toList with
  | [] => .error .empty
  | ['+'] => .error .invalidDigit
  | ['-'] => .error .invalidDigit
  | '+' :: digits => foldDigits width false 0 digits
  | '-' :: digits => foldDigits width true 0 digits
  | digits => foldDigits width false 0 digits

/-- The shortest token of a number: no sign unless negative, no leading zero. -/
def render (value : Int) : String :=
  match value with
  | .ofNat magnitude => String.ofList (Nat.toDigits 10 magnitude)
  | .negSucc below => String.ofList ('-' :: Nat.toDigits 10 (below + 1))

end Integer

end AnnotationDefaults
