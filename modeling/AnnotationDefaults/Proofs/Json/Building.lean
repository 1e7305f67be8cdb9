import AnnotationDefaults.Json.Tree
import AnnotationDefaults.Proofs.Json.Lexing

set_option autoImplicit false

/-!
Trees of written values. The lexemes of a value take the builder from awaiting a value
to having that value in the innermost open container, whatever is open around it. So a
written document is read as the tree of its value, and the tree has that value again
within its nesting.
-/

namespace AnnotationDefaults.Json.Tree

mutual

def ofJson : Json → Tree
  | .null => .null
  | .bool value => .bool value
  | .number value => .number (some value)
  | .string content => .string (some content)
  | .array items => .array (ofItems items)
  | .object members => .object (ofMembers members)

def ofItems : List Json → List Tree
  | [] => []
  | item :: rest => ofJson item :: ofItems rest

def ofMembers : List (String × Json) → List (Option String × Tree)
  | [] => []
  | (name, value) :: rest => (some name, ofJson value) :: ofMembers rest

end

/-! ### From lexemes to trees -/

/-- The lexemes of the value put it into the innermost open container. -/
def Delivers (value : Json) : Prop :=
  ∀ (frames : List Frame) (rest : List Lexeme),
    (lexemes value ++ rest).foldlM step? (.value frames) =
      rest.foldlM step? (deliver (ofJson value) frames)

/-- No value begins with the end of an array, so a first item is read like any other. -/
private theorem foldlM_firstItem (value : Json) (frames : List Frame) (rest : List Lexeme) :
    (lexemes value ++ rest).foldlM step? (.firstItem (.array [] :: frames)) =
      (lexemes value ++ rest).foldlM step? (.value (.array [] :: frames)) := by
  cases value with
  | array items =>
      cases items with
      | nil => rfl
      | cons item items => rfl
  | object members =>
      cases members with
      | nil => rfl
      | cons member members => rfl
  | _ => rfl

private theorem foldlM_lexemesOfItems {items : List Json} (hItems : ∀ item ∈ items, Delivers item)
    (held : List Tree) (frames : List Frame) (rest : List Lexeme) :
    (lexemesOfItems items ++ rest).foldlM step? (.separator (.array held :: frames)) =
      rest.foldlM step? (deliver (.array (held.reverse ++ ofItems items)) frames) := by
  induction items generalizing held with
  | nil =>
      rw [ofItems, List.append_nil]
      rfl
  | cons item items ih =>
      rw [List.forall_mem_cons] at hItems
      have hFirst := hItems.1 (.array held :: frames) (lexemesOfItems items ++ rest)
      have hRest := ih hItems.2 (ofJson item :: held)
      rw [lexemesOfItems, List.cons_append, List.append_assoc, List.foldlM_cons, ofItems]
      rw [List.reverse_cons, List.append_assoc, List.singleton_append] at hRest
      exact hFirst.trans hRest

private theorem foldlM_lexemesOfMembers {members : List (String × Json)}
    (hMembers : ∀ member ∈ members, Delivers member.2) (held : List (Option String × Tree))
    (frames : List Frame) (rest : List Lexeme) :
    (lexemesOfMembers members ++ rest).foldlM step? (.separator (.object held :: frames)) =
      rest.foldlM step? (deliver (.object (held.reverse ++ ofMembers members)) frames) := by
  induction members generalizing held with
  | nil =>
      rw [ofMembers, List.append_nil]
      rfl
  | cons member members ih =>
      rcases member with ⟨name, value⟩
      rw [List.forall_mem_cons] at hMembers
      have hFirst := hMembers.1 (.member held (some name) :: frames)
        (lexemesOfMembers members ++ rest)
      have hRest := ih hMembers.2 ((some name, ofJson value) :: held)
      rw [lexemesOfMembers, List.cons_append, List.cons_append, List.cons_append,
        List.append_assoc, List.foldlM_cons, ofMembers]
      rw [List.reverse_cons, List.append_assoc, List.singleton_append] at hRest
      exact hFirst.trans hRest

theorem delivers (value : Json) : Delivers value := by
  induction value using Json.inductionOn with
  | null => exact fun frames rest => rfl
  | bool value => exact fun frames rest => rfl
  | number value => exact fun frames rest => rfl
  | string content => exact fun frames rest => rfl
  | array items ih =>
      intro frames rest
      cases items with
      | nil => rfl
      | cons first items =>
          rw [List.forall_mem_cons] at ih
          have hFirst := ih.1 (.array [] :: frames) (lexemesOfItems items ++ rest)
          have hRest := foldlM_lexemesOfItems ih.2 [ofJson first] frames rest
          rw [← foldlM_firstItem] at hFirst
          rw [lexemes, List.cons_append, List.append_assoc, List.foldlM_cons]
          exact hFirst.trans hRest
  | object members ih =>
      intro frames rest
      cases members with
      | nil => rfl
      | cons member members =>
          rcases member with ⟨name, value⟩
          rw [List.forall_mem_cons] at ih
          have hFirst := ih.1 (.member [] (some name) :: frames) (lexemesOfMembers members ++ rest)
          have hRest := foldlM_lexemesOfMembers ih.2 [(some name, ofJson value)] frames rest
          rw [lexemes, List.cons_append, List.cons_append, List.cons_append, List.append_assoc,
            List.foldlM_cons]
          exact hFirst.trans hRest

theorem parse?_of_cutInto {value : Json} {text : String}
    (hText : CutInto text.toList (lexemes value)) :
    parse? (Utf8.symbolsOfText text) = some (ofJson value) := by
  have hBuilt := delivers value [] []
  rw [List.append_nil] at hBuilt
  rw [parse?, hText.lex?_eq, Option.bind_eq_bind, Option.bind_some, ofLexemes?, hBuilt]
  rfl

/-! ### From trees to values -/

theorem bind_both {α β γ : Type} {first second : Prop} [Decidable first] [Decidable second]
    (head : α) (tail : β) (join : α → β → γ) :
    ((if first then some head else none) >>= fun value =>
      (if second then some tail else none) >>= fun values => pure (join value values)) =
      if first ∧ second then some (join head tail) else none := by
  by_cases hFirst : first
  · by_cases hSecond : second
    · rw [if_pos hFirst, if_pos hSecond, if_pos ⟨hFirst, hSecond⟩]
      rfl
    · have hOutside : ¬ (first ∧ second) := fun hBoth => hSecond hBoth.2
      rw [if_pos hFirst, if_neg hSecond, if_neg hOutside]
      rfl
  · have hOutside : ¬ (first ∧ second) := fun hBoth => hFirst hBoth.1
    rw [if_neg hFirst, if_neg hOutside]
    rfl

/-- The tree of the value has the value exactly within its nesting. -/
def Restored (value : Json) : Prop :=
  ∀ levels, value? levels (ofJson value) = if value.nesting ≤ levels then some value else none

private theorem valuesOfItems?_ofItems {items : List Json} (hItems : ∀ item ∈ items, Restored item)
    (levels : Nat) :
    valuesOfItems? levels (ofItems items) =
      if nestingOfItems items ≤ levels then some items else none := by
  induction items with
  | nil => rfl
  | cons item items ih =>
      rw [List.forall_mem_cons] at hItems
      rw [ofItems, valuesOfItems?, hItems.1 levels, ih hItems.2, nestingOfItems]
      simp only [Nat.max_le]
      exact bind_both item items List.cons

private theorem valuesOfMembers?_ofMembers {members : List (String × Json)}
    (hMembers : ∀ member ∈ members, Restored member.2) (levels : Nat) :
    valuesOfMembers? levels (ofMembers members) =
      if nestingOfMembers members ≤ levels then some members else none := by
  induction members with
  | nil => rfl
  | cons member members ih =>
      rcases member with ⟨name, value⟩
      rw [List.forall_mem_cons] at hMembers
      rw [ofMembers, valuesOfMembers?, hMembers.1 levels, ih hMembers.2, nestingOfMembers]
      simp only [Nat.max_le]
      exact bind_both value members fun head tail => (name, head) :: tail

private theorem within_container {α β : Type} {inner : Nat} {found : Nat → Option α} {value : α}
    (hFound : ∀ levels, found levels = if inner ≤ levels then some value else none)
    (wrap : α → β) (levels : Nat) :
    (if levels = 0 then none else (found (levels - 1)).map wrap) =
      if inner + 1 ≤ levels then some (wrap value) else none := by
  cases levels with
  | zero => rfl
  | succ levels =>
      rw [if_neg (Nat.succ_ne_zero levels), Nat.add_sub_cancel, hFound]
      by_cases hWithin : inner ≤ levels
      · rw [if_pos hWithin, if_pos (Nat.succ_le_succ hWithin), Option.map_some]
      · have hOutside : ¬ inner + 1 ≤ levels + 1 := fun hLess =>
          hWithin (Nat.le_of_succ_le_succ hLess)
        rw [if_neg hWithin, if_neg hOutside, Option.map_none]

theorem restored (value : Json) : Restored value := by
  induction value using Json.inductionOn with
  | null => exact fun levels => rfl
  | bool value => exact fun levels => rfl
  | number value => exact fun levels => rfl
  | string content => exact fun levels => rfl
  | array items ih =>
      intro levels
      rw [ofJson, value?, nesting]
      exact within_container (valuesOfItems?_ofItems ih) Json.array levels
  | object members ih =>
      intro levels
      rw [ofJson, value?, nesting]
      exact within_container (valuesOfMembers?_ofMembers ih) Json.object levels

end AnnotationDefaults.Json.Tree
