import AnnotationDefaults.ConstantPool.Basic
import AnnotationDefaults.Element.Tag
import AnnotationDefaults.Number.Binary
import AnnotationDefaults.Number.Layout
import AnnotationDefaults.Text.Quoted

set_option autoImplicit false

/-!
Literal values at the width that their kind requires, and tokens, their written form
in expectations. Five kinds share the four-byte integer of the pool. Floating-point
values are bit patterns and compare as such, except that all patterns which are no
number count as one. `ofToken` reads a token at the exact width of its kind, and
`toToken` writes the one token that stands for a value, refusing an integer that its
kind cannot hold. `display` writes any value, for reports.
-/

namespace AnnotationDefaults

inductive Scalar where
  | int (value : Int32)
  | long (value : Int64)
  | float (bits : UInt32)
  | double (bits : UInt64)
  | text (content : String)
  deriving DecidableEq, Repr

/-- Patterns that denote the same value of a format or are both no number. -/
def BinaryFormat.agree (format : BinaryFormat) (left right : Nat) : Bool :=
  (format.isNaN left && format.isNaN right) || left == right

namespace Scalar

def agrees : Scalar → Scalar → Bool
  | .int left, .int right => left == right
  | .long left, .long right => left == right
  | .float left, .float right => BinaryFormat.single.agree left.toNat right.toNat
  | .double left, .double right => BinaryFormat.double.agree left.toNat right.toNat
  | .text left, .text right => left == right
  | _, _ => false

def resolve (pool : ConstantPool) (kind : LiteralTag) (index : UInt16) : Except Fault Scalar :=
  match kind with
  | .byte => (pool.integer index).map .int
  | .char => (pool.integer index).map .int
  | .short => (pool.integer index).map .int
  | .boolean => (pool.integer index).map .int
  | .int => (pool.integer index).map .int
  | .long => (pool.long index).map .long
  | .float => (pool.float index).map .float
  | .double => (pool.double index).map .double
  | .string => (pool.utf8 index).map .text

end Scalar

inductive TokenCause where
  | integer (fault : Integer.Fault)
  | float (fault : FloatToken.Fault)
  | notBoolean
  | notCharUnit
  deriving DecidableEq, Repr

def TokenCause.message : TokenCause → String
  | .integer fault => fault.message
  | .float fault => fault.message
  | .notBoolean => "expected true or false"
  | .notCharUnit => "expected one UTF-16 code unit or a \\uXXXX escape"

structure TokenFault where
  kind : LiteralTag
  token : String
  cause : TokenCause
  deriving DecidableEq, Repr

def TokenFault.message (fault : TokenFault) : String :=
  "token " ++ Quoted.text fault.token ++ " is not a valid " ++ fault.kind.name ++ ": " ++
    fault.cause.message

namespace Scalar

/-- Tokens write floating-point values positionally, whole ones without a point. -/
def tokenLayout : FloatLayout := ⟨none, false, false, .upward⟩

/-- Reports write floating-point values positionally from 1e-4 up to below 1e16
and always show that they are no integers. -/
def displayLayout : FloatLayout := ⟨some (-4, 15), true, false, .upward⟩

/-- One unit of text: an escape of four hexadecimal digits, or one character of
the basic plane. -/
def charUnit? : List Char → Option Nat
  | [symbol] => if symbol.toNat < 0x10000 then some symbol.toNat else none
  | [first, second, a, b, c, d] =>
      if first = '\\' ∧ second = 'u' then Hex.read? [a, b, c, d] else none
  | _ => none

def ofIntegerToken (width : Nat) (token : String) : Except TokenCause Int :=
  (Integer.read width token).mapError .integer

def ofFloatToken (format : BinaryFormat) (token : String) : Except TokenCause Nat :=
  (FloatToken.read format token).mapError .float

def readToken (kind : LiteralTag) (token : String) : Except TokenCause Scalar :=
  match kind with
  | .byte => (ofIntegerToken 8 token).map fun value => .int (Int32.ofInt value)
  | .short => (ofIntegerToken 16 token).map fun value => .int (Int32.ofInt value)
  | .int => (ofIntegerToken 32 token).map fun value => .int (Int32.ofInt value)
  | .long => (ofIntegerToken 64 token).map fun value => .long (Int64.ofInt value)
  | .float => (ofFloatToken .single token).map fun bits => .float (UInt32.ofNat bits)
  | .double => (ofFloatToken .double token).map fun bits => .double (UInt64.ofNat bits)
  | .boolean =>
      if token = "true" then .ok (.int 1)
      else if token = "false" then .ok (.int 0)
      else .error .notBoolean
  | .char =>
      match charUnit? token.toList with
      | some unit => .ok (.int (Int32.ofNat unit))
      | none => .error .notCharUnit
  | .string => .ok (.text token)

def ofToken (kind : LiteralTag) (token : String) : Except TokenFault Scalar :=
  (readToken kind token).mapError fun cause => ⟨kind, token, cause⟩

/-- The token of a unit of text; a surrogate, which is no character, is escaped. -/
def charToken (unit : Nat) : String :=
  if unit.isValidChar then String.ofList [Char.ofNat unit]
  else String.ofList ('\\' :: 'u' :: Hex.fixed .upper 4 unit)

def integerToken (kind : LiteralTag) (value : Int) : Except RenderFault String :=
  match kind with
  | .boolean =>
      if value = 0 then .ok "false"
      else if value = 1 then .ok "true"
      else .error (.notBoolean value)
  | .char =>
      if 0 ≤ value ∧ value < 0x10000 then .ok (charToken value.toNat)
      else .error (.charUnit value)
  | .byte =>
      if Integer.Fits 8 value then .ok (Integer.render value) else .error (.byteRange value)
  | .short =>
      if Integer.Fits 16 value then .ok (Integer.render value) else .error (.shortRange value)
  | _ => .ok (Integer.render value)

/-- The token of a value at a kind; values that are no integers have one token
whatever the kind. -/
def toToken (kind : LiteralTag) : Scalar → Except RenderFault String
  | .int value => integerToken kind value.toInt
  | .long value => .ok (Integer.render value.toInt)
  | .float bits => .ok (tokenLayout.text .single bits.toNat)
  | .double bits => .ok (tokenLayout.text .double bits.toNat)
  | .text content => .ok content

def display : Scalar → String
  | .int value => Integer.render value.toInt
  | .long value => Integer.render value.toInt
  | .float bits => displayLayout.text .single bits.toNat
  | .double bits => displayLayout.text .double bits.toNat
  | .text content => content

end Scalar

end AnnotationDefaults
