import AnnotationDefaults.Text.Printable

set_option autoImplicit false

/-!
Hexadecimal numerals, and quoted text inside messages. A text stands between double
quotes and a single character between single quotes. Four control characters and
the backslash have a short escape, the delimiter is escaped by a backslash, and
every other hidden character is written by its code point in braces. A numeral of
fixed width keeps only the digits that fit; callers bound the number first.
-/

namespace AnnotationDefaults

namespace Hex

inductive Case where
  | lower
  | upper
  deriving DecidableEq, Repr

/-- One digit; numbers above fifteen have no digit and show as the last one. -/
def digit (letters : Case) (value : Nat) : Char :=
  if value < 10 then Char.ofNat (48 + value)
  else match letters with
    | .lower => Char.ofNat (87 + min value 15)
    | .upper => Char.ofNat (55 + min value 15)

/-- The last `width` digits of a number, most significant first. -/
def fixed (letters : Case) : (width : Nat) → (value : Nat) → List Char
  | 0, _ => []
  | width + 1, value => fixed letters width (value / 16) ++ [digit letters (value % 16)]

def minimal (letters : Case) (value : Nat) : List Char :=
  fixed letters (value.log2 / 4 + 1) value

def value? (symbol : Char) : Option Nat :=
  let code := symbol.toNat
  if 48 ≤ code ∧ code ≤ 57 then some (code - 48)
  else if 97 ≤ code ∧ code ≤ 102 then some (code - 87)
  else if 65 ≤ code ∧ code ≤ 70 then some (code - 55)
  else none

def read? (symbols : List Char) : Option Nat :=
  symbols.foldlM (fun total symbol => (value? symbol).map (16 * total + ·)) 0

end Hex

namespace Quoted

def doubleQuote : Char := '\x22'

def singleQuote : Char := '\x27'

def codePoint (symbol : Char) : List Char :=
  '\\' :: 'u' :: '\x7b' :: Hex.minimal .lower symbol.toNat ++ ['\x7d']

/-- How one character is written between two `delimiter`s. -/
def escape (delimiter symbol : Char) : List Char :=
  if symbol = delimiter then ['\\', delimiter]
  else if symbol = '\\' then ['\\', '\\']
  else if symbol = '\x00' then ['\\', '0']
  else if symbol = '\t' then ['\\', 't']
  else if symbol = '\r' then ['\\', 'r']
  else if symbol = '\n' then ['\\', 'n']
  else if Printable.isHidden symbol then codePoint symbol
  else [symbol]

def text (content : String) : String :=
  String.ofList (doubleQuote :: content.toList.flatMap (escape doubleQuote) ++ [doubleQuote])

def character (symbol : Char) : String :=
  String.ofList (singleQuote :: escape singleQuote symbol ++ [singleQuote])

end Quoted

end AnnotationDefaults
