import AnnotationDefaults.Json.Lexeme
import AnnotationDefaults.Proofs.Number.Digits
import AnnotationDefaults.Proofs.Text.Hexadecimal
import Mathlib.Data.List.Forall2

set_option autoImplicit false

/-!
Literals of JSON read back. A written string is one lexeme that denotes its content,
whatever characters it holds, and a written natural is one lexeme as long as nothing
that could belong to a number follows.
-/

namespace AnnotationDefaults.Json

open Utf8 (Symbol)

/-! ### Strings -/

/-- The piece of a literal stands for this one character. -/
inductive StringPart.IsChar : StringPart → Char → Prop
  | char {symbol : Char} : IsChar (.char symbol) symbol
  | unit {symbol : Char} (hControl : symbol.toNat < 0x20) :
      IsChar (.unit (UInt16.ofNat symbol.toNat)) symbol

private theorem control_toNat {symbol : Char} (hControl : symbol.toNat < 0x20) :
    (UInt16.ofNat symbol.toNat).toNat = symbol.toNat := by
  rw [UInt16.toNat_ofNat']
  exact Nat.mod_eq_of_lt (by omega)

private theorem control_ne_surrogate {symbol : Char} (hControl : symbol.toNat < 0x20) :
    ¬ Utf16.IsHigh (UInt16.ofNat symbol.toNat) ∧ ¬ Utf16.IsLow (UInt16.ofNat symbol.toNat) := by
  unfold Utf16.IsHigh Utf16.IsLow
  rw [control_toNat hControl]
  omega

theorem textOfParts?_eq_some {parts : List StringPart} {content : List Char}
    (hParts : List.Forall₂ StringPart.IsChar parts content) :
    textOfParts? parts = some content := by
  induction hParts with
  | nil => rfl
  | @cons part symbol rest content hPart hRest ih =>
      cases hPart with
      | char => rw [textOfParts?, ih, Option.map_some]
      | unit hControl =>
          obtain ⟨hNotHigh, hNotLow⟩ := control_ne_surrogate hControl
          have hChar : Char.ofNat (UInt16.ofNat symbol.toNat).toNat = symbol := by
            rw [control_toNat hControl, Char.ofNat_toNat]
          cases rest with
          | nil =>
              cases hRest
              rw [textOfParts?, if_neg (not_or.2 ⟨hNotHigh, hNotLow⟩), hChar]
          | cons next others =>
              cases next with
              | unit second =>
                  rw [textOfParts?, if_neg hNotHigh, if_neg hNotLow, ih, Option.map_some, hChar]
              | char value =>
                  rw [textOfParts?, if_neg (not_or.2 ⟨hNotHigh, hNotLow⟩), ih, Option.map_some,
                    hChar]
                  intro second hSecond
                  cases hSecond
              | stray byte =>
                  rw [textOfParts?] at ih
                  cases ih

private def inFront (part : StringPart) (found : List StringPart × List Symbol) :
    List StringPart × List Symbol :=
  (part :: found.1, found.2)

private theorem stringParts?_letter {letter value : Char} (hLetter : letter ≠ 'u')
    (hValue : escapedChar? letter = some value) (rest : List Symbol) :
    stringParts? (.char '\\' :: .char letter :: rest) =
      (stringParts? rest).map (inFront (.char value)) := by
  rw [stringParts?, hValue]
  · cases stringParts? rest with
    | none => rfl
    | some found => rfl
  · intro a b c d others hRest hEscape
    exact hLetter hEscape

private theorem stringParts?_control {symbol : Char} (hControl : symbol.toNat < 0x20)
    (rest : List Symbol) :
    stringParts? (('\\' :: 'u' :: Hex.fixed .lower 4 symbol.toNat).map Symbol.char ++ rest) =
      (stringParts? rest).map (inFront (.unit (UInt16.ofNat symbol.toNat))) := by
  have hRead := Hex.read?_fixed .lower 4 symbol.toNat
  have hFits : symbol.toNat % 16 ^ 4 = symbol.toNat := by omega
  rw [hFits] at hRead
  obtain ⟨a, b, c, d, hDigits⟩ : ∃ a b c d, Hex.fixed .lower 4 symbol.toNat = [a, b, c, d] :=
    ⟨_, _, _, _, rfl⟩
  rw [hDigits] at hRead ⊢
  simp only [List.map_cons, List.map_nil, List.cons_append, List.nil_append]
  rw [stringParts?, hRead]
  cases stringParts? rest with
  | none => rfl
  | some found => rfl

private theorem stringParts?_raw {symbol : Char} (hQuote : symbol ≠ quote)
    (hBackslash : symbol ≠ '\\') (hControl : ¬ symbol.toNat < 0x20) (rest : List Symbol) :
    stringParts? (.char symbol :: rest) = (stringParts? rest).map (inFront (.char symbol)) := by
  rw [stringParts?, if_neg hQuote, if_neg (not_or.2 ⟨hBackslash, hControl⟩)]
  · rfl
  · intro a b c d others hRest hEscape
    exact hBackslash hEscape
  · intro letter others hRest hEscape
    exact hBackslash hEscape

private theorem exists_part (symbol : Char) :
    ∃ part : StringPart, part.IsChar symbol ∧ ∀ rest : List Symbol,
      stringParts? ((escapeChar symbol).map Symbol.char ++ rest) =
        (stringParts? rest).map (inFront part) := by
  unfold escapeChar
  split
  · rename_i hSymbol
    subst hSymbol
    exact ⟨_, .char, stringParts?_letter (by decide) (by decide)⟩
  split
  · rename_i hSymbol
    subst hSymbol
    exact ⟨_, .char, stringParts?_letter (by decide) (by decide)⟩
  split
  · rename_i hSymbol
    subst hSymbol
    exact ⟨_, .char, stringParts?_letter (by decide) (by decide)⟩
  split
  · rename_i hSymbol
    subst hSymbol
    exact ⟨_, .char, stringParts?_letter (by decide) (by decide)⟩
  split
  · rename_i hSymbol
    subst hSymbol
    exact ⟨_, .char, stringParts?_letter (by decide) (by decide)⟩
  split
  · rename_i hSymbol
    subst hSymbol
    exact ⟨_, .char, stringParts?_letter (by decide) (by decide)⟩
  split
  · rename_i hSymbol
    subst hSymbol
    exact ⟨_, .char, stringParts?_letter (by decide) (by decide)⟩
  split
  · rename_i hControl
    exact ⟨_, .unit hControl, stringParts?_control hControl⟩
  · rename_i hQuote hBackslash _ _ _ _ _ hControl
    exact ⟨_, .char, stringParts?_raw hQuote hBackslash hControl⟩

private theorem exists_parts (content : List Char) (rest : List Symbol) :
    ∃ parts, List.Forall₂ StringPart.IsChar parts content ∧
      stringParts? ((content.flatMap escapeChar).map Symbol.char ++ .char quote :: rest) =
        some (parts, rest) := by
  induction content with
  | nil =>
      have hQuote : quote ≠ '\\' := by decide
      refine ⟨[], .nil, ?_⟩
      rw [List.flatMap_nil, List.map_nil, List.nil_append, stringParts?, if_pos rfl]
      · intro a b c d others hRest hEscape
        exact hQuote hEscape
      · intro letter others hRest hEscape
        exact hQuote hEscape
  | cons symbol content ih =>
      rcases ih with ⟨parts, hParts, hRest⟩
      obtain ⟨part, hPart, hRead⟩ := exists_part symbol
      refine ⟨part :: parts, .cons hPart hParts, ?_⟩
      rw [List.flatMap_cons, List.map_append, List.append_assoc, hRead, hRest]
      rfl

theorem lexeme?_stringLiteral (content : String) (rest : List Symbol) :
    ∃ body, (stringLiteral content).map Symbol.char = .char quote :: body ∧
      lexeme? quote (body ++ rest) = some (.string (some content), rest) := by
  obtain ⟨parts, hParts, hRead⟩ := exists_parts content.toList rest
  refine ⟨(content.toList.flatMap escapeChar ++ [quote]).map Symbol.char, rfl, ?_⟩
  have hBody : lexeme? quote ((content.toList.flatMap escapeChar ++ [quote]).map Symbol.char ++
      rest) = (stringParts? ((content.toList.flatMap escapeChar).map Symbol.char ++
        .char quote :: rest)).map fun found =>
          (.string ((textOfParts? found.1).map String.ofList), found.2) := by
    rw [List.map_append, List.append_assoc]
    rfl
  rw [hBody, hRead, Option.map_some]
  dsimp only
  rw [textOfParts?_eq_some hParts, Option.map_some, String.ofList_toList]

/-! ### Naturals -/

/-- What follows a value in a written document: the end, or something that no number holds. -/
inductive Delimited : List Symbol → Prop
  | nil : Delimited []
  | comma (rest : List Symbol) : Delimited (.char ',' :: rest)
  | lineBreak (rest : List Symbol) : Delimited (.char '\n' :: rest)
  | bracket (rest : List Symbol) : Delimited (.char ']' :: rest)
  | brace (rest : List Symbol) : Delimited (.char closeBrace :: rest)

theorem spanDigits_of_delimited {rest : List Symbol} (hRest : Delimited rest) :
    spanDigits rest = ([], rest) := by
  cases hRest with
  | _ => rfl

private theorem spanDigits_append {digits : List Char} {rest : List Symbol}
    (hDigits : ∀ symbol ∈ digits, symbol.isDigit = true) (hRest : Delimited rest) :
    spanDigits (digits.map Symbol.char ++ rest) =
      (digits.map fun symbol => symbol.toNat - 48, rest) := by
  induction digits with
  | nil => exact spanDigits_of_delimited hRest
  | cons symbol digits ih =>
      rw [List.forall_mem_cons] at hDigits
      rw [List.map_cons, List.cons_append, spanDigits, Integer.digit?_of_isDigit hDigits.1,
        ih hDigits.2]
      rfl

theorem fraction?_of_delimited {rest : List Symbol} (hRest : Delimited rest) :
    fraction? rest = some (none, rest) := by
  cases hRest with
  | _ => rfl

theorem power?_of_delimited {rest : List Symbol} (hRest : Delimited rest) :
    power? rest = some (none, rest) := by
  cases hRest with
  | _ => rfl

private theorem char_of_digit_eq_zero {symbol : Char} (hDigit : symbol.isDigit = true)
    (hZero : symbol.toNat - 48 = 0) : symbol = '0' := by
  obtain ⟨hLower, -⟩ := Integer.isDigit_iff.1 hDigit
  refine Char.le_antisymm ?_ hLower
  exact Char.le_def.2 (UInt32.le_iff_toNat_le.2 (Nat.le_of_sub_eq_zero hZero))

private theorem unsigned?_toDigits (magnitude : Nat) {rest : List Symbol} (hRest : Delimited rest) :
    unsigned? false ((Nat.toDigits 10 magnitude).map Symbol.char ++ rest) =
      some (⟨false, (Nat.toDigits 10 magnitude).map fun symbol => symbol.toNat - 48, none, none⟩,
        rest) := by
  have hDigits := Integer.toDigits_all_isDigit magnitude
  unfold unsigned?
  rw [spanDigits_append hDigits hRest]
  split
  · rename_i hEmpty
    have hNil := List.map_eq_nil_iff.1 (Prod.ext_iff.1 hEmpty).1
    exact absurd hNil Nat.toDigits_ne_nil
  · rename_i second others after hZero
    -- a leading zero would stand in front of another digit
    obtain ⟨first, others', hWhole, hFirst, hOthers⟩ :=
      List.map_eq_cons_iff.1 (Prod.ext_iff.1 hZero).1
    rcases List.map_eq_cons_iff.1 hOthers with ⟨next, others'', rfl, -, -⟩
    rw [hWhole, List.forall_mem_cons] at hDigits
    rw [char_of_digit_eq_zero hDigits.1 hFirst] at hWhole
    exact absurd hWhole (Integer.toDigits_ne_zero_cons magnitude)
  · rename_i whole after _ _ hWhole
    rcases Prod.mk.inj hWhole with ⟨rfl, rfl⟩
    rw [fraction?_of_delimited hRest, Option.bind_eq_bind, Option.bind_some]
    dsimp only
    rw [power?_of_delimited hRest, Option.bind_eq_bind, Option.bind_some]
    rfl

private theorem ne_of_isDigit {first other : Char} (hFirst : first.isDigit = true)
    (hOther : other.isDigit = false) : first ≠ other := by
  rintro rfl
  rw [hFirst] at hOther
  cases hOther

theorem lexeme?_of_isDigit {first : Char} (hFirst : first.isDigit = true)
    (rest : List Symbol) :
    lexeme? first rest = (unsigned? false (.char first :: rest)).map fun found =>
      (.number (Number.ofLiteral? found.1), found.2) := by
  unfold lexeme?
  rw [if_neg (ne_of_isDigit hFirst rfl), if_neg (ne_of_isDigit hFirst rfl),
    if_neg (ne_of_isDigit hFirst rfl), if_neg (ne_of_isDigit hFirst rfl),
    if_neg (ne_of_isDigit hFirst rfl), if_neg (ne_of_isDigit hFirst rfl),
    if_neg (ne_of_isDigit hFirst rfl), if_neg (ne_of_isDigit hFirst rfl),
    if_neg (ne_of_isDigit hFirst rfl), if_neg (ne_of_isDigit hFirst rfl)]
  rw [numberLiteral?]
  rintro others ⟨⟩
  cases hFirst

theorem isBlank_of_isDigit {first : Char} (hFirst : first.isDigit = true) :
    isBlank first = false := by
  unfold isBlank
  rw [beq_false_of_ne (ne_of_isDigit hFirst rfl), beq_false_of_ne (ne_of_isDigit hFirst rfl),
    beq_false_of_ne (ne_of_isDigit hFirst rfl), beq_false_of_ne (ne_of_isDigit hFirst rfl)]
  rfl

theorem lexeme?_render {magnitude : Nat} (hMagnitude : magnitude < UInt64.size)
    {rest : List Symbol} (hRest : Delimited rest) :
    ∃ first body, (Integer.render magnitude).toList.map Symbol.char = .char first :: body ∧
      isBlank first = false ∧
      lexeme? first (body ++ rest) = some (.number (some (.integer magnitude)), rest) := by
  obtain ⟨first, others, hDigits, hFirst⟩ := Integer.toDigits_eq_cons magnitude
  have hText : (Integer.render magnitude).toList = Nat.toDigits 10 magnitude :=
    String.toList_ofList
  have hRead := unsigned?_toDigits magnitude hRest
  have hValue : Number.ofLiteral?
      ⟨false, (Nat.toDigits 10 magnitude).map fun symbol => symbol.toNat - 48, none, none⟩ =
        some (.integer magnitude) := by
    have hDenoted : Decimal.ofDigits
        ((Nat.toDigits 10 magnitude).map fun symbol => symbol.toNat - 48) = magnitude := by
      rw [Decimal.ofDigits_map, Nat.ofDigitChars_toDigits (by omega) (by omega)]
    unfold Number.ofLiteral?
    simp only [hDenoted, if_pos hMagnitude]
    rfl
  refine ⟨first, others.map .char, by rw [hText, hDigits, List.map_cons],
    isBlank_of_isDigit hFirst, ?_⟩
  rw [lexeme?_of_isDigit hFirst, ← List.cons_append, ← List.map_cons, ← hDigits, hRead,
    Option.map_some]
  dsimp only
  rw [hValue]

end AnnotationDefaults.Json
