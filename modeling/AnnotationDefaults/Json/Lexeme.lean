import AnnotationDefaults.Json.Value
import AnnotationDefaults.Text.ModifiedUtf8
import AnnotationDefaults.Text.Utf8

set_option autoImplicit false

/-!
The lexemes of a JSON document. Lexing checks the grammar alone. A string whose
escapes leave a surrogate without a partner, or which holds a stray byte, denotes
no text, and a number beyond every double denotes no number; both are lexemes all
the same, so that a part of a document that nobody reads may hold them.
-/

namespace AnnotationDefaults.Json

open Utf8 (Symbol)

/-- A lexeme; strings and numbers carry what they denote, if anything. -/
inductive Lexeme where
  | openArray
  | closeArray
  | openObject
  | closeObject
  | comma
  | colon
  | null
  | bool (value : Bool)
  | number (value : Option Number)
  | string (content : Option String)
  deriving DecidableEq, Repr

inductive StringPart where
  | char (value : Char)
  | unit (value : UInt16)
  | stray (value : UInt8)
  deriving DecidableEq, Repr

/-- The text of a literal's parts: a high surrogate needs a low one right after
it, and stray bytes have no text. -/
def textOfParts? : List StringPart → Option (List Char)
  | [] => some []
  | .char value :: rest => (textOfParts? rest).map (value :: ·)
  | .stray _ :: _ => none
  | [.unit unit] =>
      if Utf16.IsHigh unit ∨ Utf16.IsLow unit then none
      else some [Char.ofNat unit.toNat]
  | .unit first :: .unit second :: rest =>
      if Utf16.IsHigh first then
        if Utf16.IsLow second then
          (textOfParts? rest).map (Utf16.pairChar first second :: ·)
        else none
      else if Utf16.IsLow first then none
      else (textOfParts? (.unit second :: rest)).map (Char.ofNat first.toNat :: ·)
  | .unit unit :: next :: rest =>
      if Utf16.IsHigh unit ∨ Utf16.IsLow unit then none
      else (textOfParts? (next :: rest)).map (Char.ofNat unit.toNat :: ·)

def escapedChar? (letter : Char) : Option Char :=
  if letter = quote then some quote
  else if letter = '\\' then some '\\'
  else if letter = '/' then some '/'
  else if letter = 'b' then some '\x08'
  else if letter = 'f' then some '\x0c'
  else if letter = 'n' then some '\n'
  else if letter = 'r' then some '\r'
  else if letter = 't' then some '\t'
  else none

/-- The parts of a string literal after its opening quote, and the symbols after
its closing quote. Raw control characters are refused. -/
def stringParts? : List Symbol → Option (List StringPart × List Symbol)
  | [] => none
  | .stray byte :: rest =>
      (stringParts? rest).map fun (parts, rest) => (.stray byte :: parts, rest)
  | .char '\\' :: .char 'u' :: .char a :: .char b :: .char c :: .char d :: rest => do
      let unit ← Hex.read? [a, b, c, d]
      let (parts, rest) ← stringParts? rest
      return (.unit (UInt16.ofNat unit) :: parts, rest)
  | .char '\\' :: .char letter :: rest => do
      let value ← escapedChar? letter
      let (parts, rest) ← stringParts? rest
      return (.char value :: parts, rest)
  | .char symbol :: rest =>
      if symbol = quote then some ([], rest)
      else if symbol = '\\' ∨ symbol.toNat < 0x20 then none
      else (stringParts? rest).map fun (parts, rest) => (.char symbol :: parts, rest)

def spanDigits : List Symbol → List Nat × List Symbol
  | .char symbol :: rest =>
      match Integer.digit? symbol with
      | none => ([], .char symbol :: rest)
      | some digit =>
          let (digits, rest) := spanDigits rest
          (digit :: digits, rest)
  | symbols => ([], symbols)

/-- A fraction, if a point comes next; at least one digit must follow it. -/
def fraction? : List Symbol → Option (Option (List Nat) × List Symbol)
  | .char '.' :: rest =>
      match spanDigits rest with
      | ([], _) => none
      | (digits, rest) => some (some digits, rest)
  | symbols => some (none, symbols)

def power? : List Symbol → Option (Option Int × List Symbol)
  | .char mark :: rest =>
      if mark = 'e' ∨ mark = 'E' then
        let (negative, rest) := match rest with
          | .char '-' :: rest => (true, rest)
          | .char '+' :: rest => (false, rest)
          | _ => (false, rest)
        match spanDigits rest with
        | ([], _) => none
        | (digits, rest) =>
            let power : Int := Decimal.ofDigits digits
            some (some (if negative then -power else power), rest)
      else some (none, .char mark :: rest)
  | symbols => some (none, symbols)

/-- An unsigned number literal: a whole part without a leading zero, then the
optional parts. -/
def unsigned? (negative : Bool) (symbols : List Symbol) :
    Option (NumberLiteral × List Symbol) :=
  match spanDigits symbols with
  | ([], _) => none
  | (0 :: _ :: _, _) => none
  | (whole, rest) => do
      let (fraction, rest) ← fraction? rest
      let (power, rest) ← power? rest
      return (⟨negative, whole, fraction, power⟩, rest)

def numberLiteral? : List Symbol → Option (NumberLiteral × List Symbol)
  | .char '-' :: rest => unsigned? true rest
  | symbols => unsigned? false symbols

def word? : List Char → List Symbol → Option (List Symbol)
  | [], symbols => some symbols
  | expected :: word, .char symbol :: rest => if symbol = expected then word? word rest else none
  | _, _ => none

def isBlank (symbol : Char) : Bool :=
  symbol == ' ' || symbol == '\n' || symbol == '\r' || symbol == '\t'

def lexeme? (first : Char) (rest : List Symbol) : Option (Lexeme × List Symbol) :=
  if first = '[' then some (.openArray, rest)
  else if first = ']' then some (.closeArray, rest)
  else if first = openBrace then some (.openObject, rest)
  else if first = closeBrace then some (.closeObject, rest)
  else if first = ',' then some (.comma, rest)
  else if first = ':' then some (.colon, rest)
  else if first = quote then
    (stringParts? rest).map fun (parts, rest) =>
      (.string ((textOfParts? parts).map String.ofList), rest)
  else if first = 'n' then (word? ['u', 'l', 'l'] rest).map ((.null, ·))
  else if first = 't' then (word? ['r', 'u', 'e'] rest).map ((.bool true, ·))
  else if first = 'f' then (word? ['a', 'l', 's', 'e'] rest).map ((.bool false, ·))
  else (numberLiteral? (.char first :: rest)).map fun (literal, rest) =>
    (.number (Number.ofLiteral? literal), rest)

/-- The lexemes of the symbols, if `fuel` exceeds their number. -/
def lexWithin : (fuel : Nat) → List Symbol → Option (List Lexeme)
  | 0, _ => none
  | _ + 1, [] => some []
  | _ + 1, .stray _ :: _ => none
  | fuel + 1, .char first :: rest =>
      if isBlank first then lexWithin fuel rest
      else do
        let (lexeme, rest) ← lexeme? first rest
        let lexemes ← lexWithin fuel rest
        return lexeme :: lexemes

/-- The lexemes of a document. Each takes a symbol, so the bound is never met. -/
def lex? (symbols : List Symbol) : Option (List Lexeme) :=
  lexWithin (symbols.length + 1) symbols

end AnnotationDefaults.Json
