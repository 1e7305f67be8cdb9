import AnnotationDefaults.Proofs.Json.Lexing

set_option autoImplicit false

/-!
Written values cut into lexemes. The compact and the indented form of a value differ in
the blanks of their containers alone, so they are two layouts of one form, and under
every layout a plain value has the lexemes of its parts in order.
-/

namespace AnnotationDefaults.Json

open Utf8 (Symbol)

/-- The blanks that a container is written with. -/
structure Layout where
  gap : List Char
  colonGap : List Char
  endGap : List Char
  gap_blank : ∀ symbol ∈ gap, isBlank symbol = true
  colonGap_blank : ∀ symbol ∈ colonGap, isBlank symbol = true
  endGap_blank : ∀ symbol ∈ endGap, isBlank symbol = true
  endGap_head : ∀ symbol ∈ endGap.head?, symbol = '\n'

namespace Layout

variable (layout : Layout) (write : Json → List Char)

def item (value : Json) : List Char := layout.gap ++ write value

def items : List Json → List Char
  | [] => layout.endGap ++ [']']
  | first :: rest => ',' :: (layout.item write first ++ items rest)

def array : List Json → List Char
  | [] => ['[', ']']
  | first :: rest => '[' :: (layout.item write first ++ layout.items write rest)

def member (name : String) (value : Json) : List Char :=
  layout.gap ++ stringLiteral name ++ ':' :: (layout.colonGap ++ write value)

def members : List (String × Json) → List Char
  | [] => layout.endGap ++ [closeBrace]
  | (name, value) :: rest => ',' :: (layout.member write name value ++ members rest)

def object : List (String × Json) → List Char
  | [] => [openBrace, closeBrace]
  | (name, value) :: rest =>
      openBrace :: (layout.member write name value ++ layout.members write rest)

def compact : Layout where
  gap := []
  colonGap := []
  endGap := []
  gap_blank := List.forall_mem_nil _
  colonGap_blank := List.forall_mem_nil _
  endGap_blank := List.forall_mem_nil _
  endGap_head := by rintro symbol ⟨⟩

theorem lineBreak_blank (depth : Nat) : ∀ symbol ∈ lineBreak depth, isBlank symbol = true := by
  rw [lineBreak, List.forall_mem_cons]
  refine ⟨rfl, ?_⟩
  intro symbol hMem
  rw [List.eq_of_mem_replicate hMem]
  rfl

def indented (depth : Nat) : Layout where
  gap := lineBreak (depth + 1)
  colonGap := [' ']
  endGap := lineBreak depth
  gap_blank := lineBreak_blank (depth + 1)
  colonGap_blank := List.forall_mem_singleton.2 rfl
  endGap_blank := lineBreak_blank depth
  endGap_head := by
    rintro symbol ⟨⟩
    rfl

end Layout

theorem compactItems_eq (items : List Json) :
    compactItems items = Layout.compact.items compactChars items := by
  induction items with
  | nil => rfl
  | cons item items ih =>
      rw [compactItems, ih]
      rfl

theorem compactMembers_eq (members : List (String × Json)) :
    compactMembers members = Layout.compact.members compactChars members := by
  induction members with
  | nil => rfl
  | cons member members ih =>
      rw [compactMembers, ih]
      rfl

theorem compactChars_array (items : List Json) :
    compactChars (.array items) = Layout.compact.array compactChars items := by
  cases items with
  | nil => rfl
  | cons item items =>
      rw [compactChars, compactItems_eq]
      rfl

theorem compactChars_object (members : List (String × Json)) :
    compactChars (.object members) = Layout.compact.object compactChars members := by
  cases members with
  | nil => rfl
  | cons member members =>
      rw [compactChars, compactMembers_eq]
      rfl

theorem indentedItems_eq (depth : Nat) (items : List Json) :
    indentedItems depth items =
      (Layout.indented depth).items (indentedChars (depth + 1)) items := by
  induction items with
  | nil => rfl
  | cons item items ih =>
      rw [indentedItems, ih]
      rfl

theorem indentedMembers_eq (depth : Nat) (members : List (String × Json)) :
    indentedMembers depth members =
      (Layout.indented depth).members (indentedChars (depth + 1)) members := by
  induction members with
  | nil => rfl
  | cons member members ih =>
      rw [indentedMembers, ih]
      rfl

theorem indentedChars_array (depth : Nat) (items : List Json) :
    indentedChars depth (.array items) =
      (Layout.indented depth).array (indentedChars (depth + 1)) items := by
  cases items with
  | nil => rfl
  | cons item items =>
      rw [indentedChars, indentedItems_eq]
      rfl

theorem indentedChars_object (depth : Nat) (members : List (String × Json)) :
    indentedChars depth (.object members) =
      (Layout.indented depth).object (indentedChars (depth + 1)) members := by
  cases members with
  | nil => rfl
  | cons member members =>
      rw [indentedChars, indentedMembers_eq]
      rfl

/-! ### Containers -/

namespace Layout

variable {layout : Layout} {write : Json → List Char}

theorem endGap_delimited {mark : Char} (hMark : ∀ rest, Delimited (.char mark :: rest))
    (rest : List Symbol) : Delimited ((layout.endGap ++ [mark]).map Symbol.char ++ rest) := by
  have hHead := layout.endGap_head
  cases hGap : layout.endGap with
  | nil => exact hMark rest
  | cons symbol gap =>
      rw [hGap] at hHead
      rw [hHead symbol rfl]
      exact .lineBreak _

theorem items_delimited (values : List Json) (rest : List Symbol) :
    Delimited ((layout.items write values).map Symbol.char ++ rest) := by
  cases values with
  | nil => exact endGap_delimited .bracket rest
  | cons first others => exact .comma _

theorem members_delimited (values : List (String × Json)) (rest : List Symbol) :
    Delimited ((layout.members write values).map Symbol.char ++ rest) := by
  cases values with
  | nil => exact endGap_delimited .brace rest
  | cons first others => exact .comma _

theorem item_cutInto {value : Json} (hValue : CutInto (write value) (lexemes value)) :
    CutInto (layout.item write value) (lexemes value) :=
  hValue.blanks layout.gap_blank

theorem member_cutInto (name : String) {value : Json}
    (hValue : CutInto (write value) (lexemes value)) :
    CutInto (layout.member write name value)
      (.string (some name) :: .colon :: lexemes value) := by
  rw [member, List.append_assoc]
  apply CutInto.blanks layout.gap_blank
  apply CutInto.literal name
  apply CutInto.mark rfl fun _ => rfl
  exact hValue.blanks layout.colonGap_blank

theorem items_cutInto {values : List Json}
    (hValues : ∀ value ∈ values, CutInto (write value) (lexemes value)) :
    CutInto (layout.items write values) (lexemesOfItems values) := by
  induction values with
  | nil =>
      apply CutInto.blanks layout.endGap_blank
      exact CutInto.mark rfl (fun _ => rfl) cutInto_nil
  | cons first rest ih =>
      rw [List.forall_mem_cons] at hValues
      apply CutInto.mark rfl fun _ => rfl
      exact (item_cutInto hValues.1).append (ih hValues.2) (items_delimited rest)

theorem array_cutInto {values : List Json}
    (hValues : ∀ value ∈ values, CutInto (write value) (lexemes value)) :
    CutInto (layout.array write values) (lexemes (.array values)) := by
  cases values with
  | nil =>
      apply CutInto.mark rfl fun _ => rfl
      exact CutInto.mark rfl (fun _ => rfl) cutInto_nil
  | cons first rest =>
      rw [List.forall_mem_cons] at hValues
      apply CutInto.mark rfl fun _ => rfl
      exact (item_cutInto hValues.1).append (items_cutInto hValues.2) (items_delimited rest)

theorem members_cutInto {values : List (String × Json)}
    (hValues : ∀ entry ∈ values, CutInto (write entry.2) (lexemes entry.2)) :
    CutInto (layout.members write values) (lexemesOfMembers values) := by
  induction values with
  | nil =>
      apply CutInto.blanks layout.endGap_blank
      exact CutInto.mark rfl (fun _ => rfl) cutInto_nil
  | cons first rest ih =>
      rcases first with ⟨name, value⟩
      rw [List.forall_mem_cons] at hValues
      apply CutInto.mark rfl fun _ => rfl
      exact (member_cutInto name hValues.1).append (ih hValues.2) (members_delimited rest)

theorem object_cutInto {values : List (String × Json)}
    (hValues : ∀ entry ∈ values, CutInto (write entry.2) (lexemes entry.2)) :
    CutInto (layout.object write values) (lexemes (.object values)) := by
  cases values with
  | nil =>
      apply CutInto.mark rfl fun _ => rfl
      exact CutInto.mark rfl (fun _ => rfl) cutInto_nil
  | cons first rest =>
      rcases first with ⟨name, value⟩
      rw [List.forall_mem_cons] at hValues
      apply CutInto.mark rfl fun _ => rfl
      exact (member_cutInto name hValues.1).append (members_cutInto hValues.2)
        (members_delimited rest)

end Layout

/-! ### Plain values -/

theorem string_cutInto (content : String) :
    CutInto (scalarText (.string content)) [.string (some content)] := by
  intro rest found hDelimited hRest
  exact lex?_stringLiteral content hRest

theorem null_cutInto : CutInto (scalarText .null) [.null] := by
  intro rest found hDelimited hRest
  exact lex?_word rfl (fun _ => rfl) hRest

theorem bool_cutInto (value : Bool) : CutInto (scalarText (.bool value)) [.bool value] := by
  intro rest found hDelimited hRest
  cases value with
  | true => exact lex?_word rfl (fun _ => rfl) hRest
  | false => exact lex?_word rfl (fun _ => rfl) hRest

theorem natural_cutInto {magnitude : Nat} (hMagnitude : magnitude < UInt64.size) :
    CutInto (scalarText (.natural magnitude)) (lexemes (.natural magnitude)) := by
  intro rest found hDelimited hRest
  obtain ⟨first, body, hText, hFirst, hLexeme⟩ := lexeme?_render hMagnitude hDelimited
  have hChars : scalarText (.natural magnitude) = (Integer.render magnitude).toList := rfl
  rw [hChars, hText, List.cons_append]
  exact lex?_lexeme hFirst hLexeme hRest

/-- The compact form of a plain value has the lexemes of the value. -/
theorem compactChars_cutInto {value : Json} (hPlain : value.Plain) :
    CutInto (compactChars value) (lexemes value) := by
  induction hPlain with
  | null => exact null_cutInto
  | bool => exact bool_cutInto _
  | natural hMagnitude => exact natural_cutInto hMagnitude
  | string => exact string_cutInto _
  | array hItems ih =>
      rw [compactChars_array]
      exact Layout.array_cutInto ih
  | object hMembers ih =>
      rw [compactChars_object]
      exact Layout.object_cutInto ih

theorem indentedChars_cutInto {value : Json} (hPlain : value.Plain) (depth : Nat) :
    CutInto (indentedChars depth value) (lexemes value) := by
  induction hPlain generalizing depth with
  | null => exact null_cutInto
  | bool => exact bool_cutInto _
  | natural hMagnitude => exact natural_cutInto hMagnitude
  | string => exact string_cutInto _
  | array hItems ih =>
      rw [indentedChars_array]
      exact Layout.array_cutInto fun item hMem => ih item hMem (depth + 1)
  | object hMembers ih =>
      rw [indentedChars_object]
      exact Layout.object_cutInto fun member hMem => ih member hMem (depth + 1)

theorem compact_cutInto {value : Json} (hPlain : value.Plain) :
    CutInto value.compact.toList (lexemes value) := by
  rw [compact, String.toList_ofList]
  exact compactChars_cutInto hPlain

theorem indented_cutInto {value : Json} (hPlain : value.Plain) :
    CutInto value.indented.toList (lexemes value) := by
  rw [indented, String.toList_ofList]
  exact indentedChars_cutInto hPlain 0

end AnnotationDefaults.Json
