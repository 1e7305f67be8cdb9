import AnnotationDefaults.Proofs.Json.Literals

set_option autoImplicit false

/-!
Texts cut into lexemes. A text that is followed by something no number runs into has the
lexemes of its parts in order, and blanks leave no lexeme behind. The module also holds
the induction over values that later proofs use.
-/

namespace AnnotationDefaults.Json

open Utf8 (Symbol)

/-- Induction over values: items and members are reached by membership. -/
@[elab_as_elim]
theorem inductionOn {motive : Json → Prop} (null : motive .null)
    (bool : ∀ value, motive (.bool value)) (number : ∀ value, motive (.number value))
    (string : ∀ content, motive (.string content))
    (array : ∀ items, (∀ item ∈ items, motive item) → motive (.array items))
    (object : ∀ members, (∀ member ∈ members, motive member.2) → motive (.object members))
    (value : Json) : motive value := by
  match value with
  | .null => exact null
  | .bool value => exact bool value
  | .number value => exact number value
  | .string content => exact string content
  | .array items =>
      apply array items
      intro item hMem
      exact inductionOn null bool number string array object item
  | .object members =>
      apply object members
      intro member hMem
      exact inductionOn null bool number string array object member.2
termination_by sizeOf value
decreasing_by
  · have hLess := List.sizeOf_lt_of_mem hMem
    simp only [Json.array.sizeOf_spec]
    omega
  · have hLess := List.sizeOf_lt_of_mem hMem
    rcases member with ⟨name, value⟩
    simp only [Prod.mk.sizeOf_spec, Json.object.sizeOf_spec] at hLess ⊢
    omega

/-- Every number of the value is a natural of at most sixty-four bits. -/
inductive Plain : Json → Prop
  | null : Plain .null
  | bool {value : Bool} : Plain (.bool value)
  | natural {magnitude : Nat} (hMagnitude : magnitude < UInt64.size) : Plain (.natural magnitude)
  | string {content : String} : Plain (.string content)
  | array {items : List Json} (hItems : ∀ item ∈ items, Plain item) : Plain (.array items)
  | object {members : List (String × Json)} (hMembers : ∀ member ∈ members, Plain member.2) :
      Plain (.object members)

mutual

def lexemes : Json → List Lexeme
  | .null => [.null]
  | .bool value => [.bool value]
  | .number value => [.number (some value)]
  | .string content => [.string (some content)]
  | .array [] => [.openArray, .closeArray]
  | .array (first :: rest) => .openArray :: (lexemes first ++ lexemesOfItems rest)
  | .object [] => [.openObject, .closeObject]
  | .object ((name, value) :: rest) =>
      .openObject :: .string (some name) :: .colon :: (lexemes value ++ lexemesOfMembers rest)

def lexemesOfItems : List Json → List Lexeme
  | [] => [.closeArray]
  | item :: rest => .comma :: (lexemes item ++ lexemesOfItems rest)

def lexemesOfMembers : List (String × Json) → List Lexeme
  | [] => [.closeObject]
  | (name, value) :: rest =>
      .comma :: .string (some name) :: .colon :: (lexemes value ++ lexemesOfMembers rest)

end

/-! ### One lexeme at a time -/

theorem lexWithin_mono {fuel more : Nat} {symbols : List Symbol} {found : List Lexeme}
    (hFound : lexWithin fuel symbols = some found) (hMore : fuel ≤ more) :
    lexWithin more symbols = some found := by
  induction fuel generalizing more symbols found with
  | zero => cases hFound
  | succ fuel ih =>
      obtain ⟨more, rfl⟩ : ∃ below, more = below + 1 := ⟨more - 1, by omega⟩
      cases symbols with
      | nil => exact hFound
      | cons symbol rest =>
          cases symbol with
          | stray byte => cases hFound
          | char first =>
              rw [lexWithin] at hFound ⊢
              by_cases hBlank : isBlank first = true
              · rw [if_pos hBlank] at hFound ⊢
                exact ih hFound (Nat.le_of_succ_le_succ hMore)
              · rw [if_neg hBlank] at hFound ⊢
                simp only [Option.bind_eq_bind, Option.bind_eq_some_iff] at hFound ⊢
                rcases hFound with ⟨⟨lexeme, after⟩, hLexeme, others, hOthers, hCons⟩
                exact ⟨(lexeme, after), hLexeme, others,
                  ih hOthers (Nat.le_of_succ_le_succ hMore), hCons⟩

variable {rest : List Symbol} {found : List Lexeme}

theorem lex?_blank {symbol : Char} (hBlank : isBlank symbol = true) :
    lex? (.char symbol :: rest) = lex? rest := by
  rw [lex?, List.length_cons, lexWithin, if_pos hBlank, lex?]

theorem lex?_lexeme {first : Char} {body : List Symbol} {lexeme : Lexeme}
    (hFirst : isBlank first = false)
    (hLexeme : lexeme? first (body ++ rest) = some (lexeme, rest))
    (hRest : lex? rest = some found) :
    lex? (.char first :: (body ++ rest)) = some (lexeme :: found) := by
  have hWithin : lexWithin ((body ++ rest).length + 1) rest = some found := by
    apply lexWithin_mono hRest
    rw [List.length_append]
    omega
  rw [lex?, List.length_cons, lexWithin, hFirst, hLexeme]
  rw [if_neg Bool.false_ne_true, Option.bind_eq_bind, Option.bind_some]
  dsimp only
  rw [hWithin]
  rfl

theorem lex?_word {first : Char} {letters : List Char} {lexeme : Lexeme}
    (hFirst : isBlank first = false)
    (hWord : ∀ rest, lexeme? first (letters.map Symbol.char ++ rest) = some (lexeme, rest))
    (hRest : lex? rest = some found) :
    lex? ((first :: letters).map Symbol.char ++ rest) = some (lexeme :: found) :=
  lex?_lexeme hFirst (hWord rest) hRest

theorem lex?_mark {symbol : Char} {lexeme : Lexeme} (hSymbol : isBlank symbol = false)
    (hLexeme : ∀ rest, lexeme? symbol rest = some (lexeme, rest))
    (hRest : lex? rest = some found) : lex? (.char symbol :: rest) = some (lexeme :: found) := by
  have hWord : ∀ rest, lexeme? symbol (([] : List Char).map Symbol.char ++ rest) =
      some (lexeme, rest) := hLexeme
  exact lex?_word hSymbol hWord hRest

theorem lex?_blanks {gap : List Char} (hGap : ∀ symbol ∈ gap, isBlank symbol = true) :
    lex? (gap.map Symbol.char ++ rest) = lex? rest := by
  induction gap with
  | nil => rfl
  | cons symbol gap ih =>
      rw [List.forall_mem_cons] at hGap
      rw [List.map_cons, List.cons_append, lex?_blank hGap.1, ih hGap.2]

theorem lex?_stringLiteral (content : String) (hRest : lex? rest = some found) :
    lex? ((stringLiteral content).map Symbol.char ++ rest) =
      some (.string (some content) :: found) := by
  obtain ⟨body, hText, hLexeme⟩ := lexeme?_stringLiteral content rest
  rw [hText, List.cons_append]
  exact lex?_lexeme rfl hLexeme hRest

/-! ### Texts with given lexemes -/

/-- In front of whatever may follow a value, the text has these lexemes. -/
def CutInto (text : List Char) (cut : List Lexeme) : Prop :=
  ∀ rest found, Delimited rest → lex? rest = some found →
    lex? (text.map Symbol.char ++ rest) = some (cut ++ found)

theorem CutInto.blanks {gap text : List Char} {cut : List Lexeme}
    (hGap : ∀ symbol ∈ gap, isBlank symbol = true) (hText : CutInto text cut) :
    CutInto (gap ++ text) cut := by
  intro rest found hDelimited hRest
  rw [List.map_append, List.append_assoc, lex?_blanks hGap]
  exact hText rest found hDelimited hRest

theorem CutInto.mark {symbol : Char} {lexeme : Lexeme} {text : List Char} {cut : List Lexeme}
    (hSymbol : isBlank symbol = false) (hLexeme : ∀ rest, lexeme? symbol rest = some (lexeme, rest))
    (hText : CutInto text cut) : CutInto (symbol :: text) (lexeme :: cut) := by
  intro rest found hDelimited hRest
  exact lex?_mark hSymbol hLexeme (hText rest found hDelimited hRest)

theorem CutInto.literal (content : String) {text : List Char} {cut : List Lexeme}
    (hText : CutInto text cut) :
    CutInto (stringLiteral content ++ text) (.string (some content) :: cut) := by
  intro rest found hDelimited hRest
  rw [List.map_append, List.append_assoc]
  exact lex?_stringLiteral content (hText rest found hDelimited hRest)

theorem CutInto.append {first second : List Char} {cut others : List Lexeme}
    (hFirst : CutInto first cut) (hSecond : CutInto second others)
    (hBoundary : ∀ rest, Delimited (second.map Symbol.char ++ rest)) :
    CutInto (first ++ second) (cut ++ others) := by
  intro rest found hDelimited hRest
  rw [List.map_append, List.append_assoc, List.append_assoc]
  exact hFirst _ _ (hBoundary rest) (hSecond rest found hDelimited hRest)

theorem cutInto_nil : CutInto [] [] := by
  intro rest found hDelimited hRest
  exact hRest

theorem CutInto.lineBreak {text : String} {cut : List Lexeme} (hText : CutInto text.toList cut) :
    CutInto (text ++ "\n").toList cut := by
  intro rest found hDelimited hRest
  rw [String.toList_append, List.map_append, List.append_assoc]
  exact hText _ found (.lineBreak rest) ((lex?_blank rfl).trans hRest)

theorem CutInto.lex?_eq {text : String} {cut : List Lexeme} (hText : CutInto text.toList cut) :
    lex? (Utf8.symbolsOfText text) = some cut := by
  have hWhole := hText [] [] .nil rfl
  rw [List.append_nil, List.append_nil] at hWhole
  exact hWhole

end AnnotationDefaults.Json
