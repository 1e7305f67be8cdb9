set_option autoImplicit false

/-!
Bytes seen as text. A byte string is cut into symbols: well-formed UTF-8
sequences become characters, and a byte that opens no well-formed sequence
becomes a stray symbol of its own. Bytes below 128 are always characters, so the
delimiters of a text format are never swallowed by a broken sequence.
-/

namespace AnnotationDefaults.Utf8

/-- A character, or a byte that belongs to none. -/
inductive Symbol where
  | char (value : Char)
  | stray (value : UInt8)
  deriving DecidableEq, Repr

def IsContinuation (byte : UInt8) : Prop := 0x80 ≤ byte.toNat ∧ byte.toNat ≤ 0xbf

instance (byte : UInt8) : Decidable (IsContinuation byte) :=
  inferInstanceAs (Decidable (_ ∧ _))

/-- The character that `lead` and the bytes after it open, with the number of
those later bytes that belong to it. Overlong forms and surrogates have none. -/
def char? (lead : UInt8) (rest : List UInt8) : Option (Char × Nat) :=
  let first := lead.toNat
  if first < 0x80 then some (Char.ofNat first, 0)
  else match rest with
    | [] => none
    | second :: rest =>
        if ¬ IsContinuation second then none
        else if 0xc2 ≤ first ∧ first ≤ 0xdf then
          some (Char.ofNat (first % 32 * 64 + second.toNat % 64), 1)
        else match rest with
          | [] => none
          | third :: rest =>
              if ¬ IsContinuation third then none
              else if 0xe0 ≤ first ∧ first ≤ 0xef then
                let code := first % 16 * 4096 + second.toNat % 64 * 64 + third.toNat % 64
                if 0x800 ≤ code ∧ code.isValidChar then some (Char.ofNat code, 2) else none
              else match rest with
                | [] => none
                | fourth :: _ =>
                    let code := first % 8 * 262144 + second.toNat % 64 * 4096 +
                      third.toNat % 64 * 64 + fourth.toNat % 64
                    if IsContinuation fourth ∧ 0xf0 ≤ first ∧ first ≤ 0xf4 ∧
                        0x10000 ≤ code ∧ code.isValidChar then
                      some (Char.ofNat code, 3)
                    else none

/-- Symbols of a byte string whose first `owed` bytes belong to the symbol before. -/
def symbolsAfter : (owed : Nat) → List UInt8 → List Symbol
  | _, [] => []
  | owed + 1, _ :: rest => symbolsAfter owed rest
  | 0, lead :: rest =>
      match char? lead rest with
      | some (value, owed) => .char value :: symbolsAfter owed rest
      | none => .stray lead :: symbolsAfter 0 rest

def symbols (bytes : List UInt8) : List Symbol := symbolsAfter 0 bytes

def symbolsOfText (content : String) : List Symbol := content.toList.map .char

end AnnotationDefaults.Utf8
