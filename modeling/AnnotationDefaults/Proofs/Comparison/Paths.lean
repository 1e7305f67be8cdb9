import AnnotationDefaults.Proofs.Comparison.Reach
import AnnotationDefaults.Proofs.Number.Digits

set_option autoImplicit false

/-!
Paths as names of positions. A path is the root's with a segment for each step: a mark, which
says what kind of step it is, and what follows the mark. If no name holds a mark, the marks cut
the path into its segments again, so two positions never share a path; and a comparison checks
the tag of each value that an expectation names at most once.
-/

namespace AnnotationDefaults

/-! ### Segments -/

/-- The characters that begin a segment of a path. -/
def IsMark (symbol : Char) : Prop := symbol = '.' ∨ symbol = '['

instance (symbol : Char) : Decidable (IsMark symbol) :=
  inferInstanceAs (Decidable (symbol = '.' ∨ symbol = '['))

def IsMarkFree (name : String) : Prop := ∀ symbol ∈ name.toList, ¬ IsMark symbol

namespace Step

/-- The step is to an item, or to a value of a name without marks. -/
def IsPlain : Step → Prop
  | .member name => IsMarkFree name
  | .item _ => True

def mark : Step → Char
  | .member _ => '.'
  | .item _ => '['

def body : Step → List Char
  | .member name => name.toList
  | .item position => (Integer.render position).toList ++ [']']

def segment (step : Step) : List Char := step.mark :: step.body

theorem isMark_mark (step : Step) : IsMark step.mark := by
  cases step with
  | member name => exact Or.inl rfl
  | item position => exact Or.inr rfl

theorem eq_of_segment {first second : Step} (hMark : first.mark = second.mark)
    (hBody : first.body = second.body) : first = second := by
  cases first with
  | member name =>
      cases second with
      | member name' => exact congrArg Step.member (String.toList_injective hBody)
      | item position => cases hMark
  | item position =>
      cases second with
      | member name => cases hMark
      | item position' =>
          have hNumerals := String.toList_injective (List.append_cancel_right hBody)
          exact congrArg Step.item (Integer.render_natCast_injective hNumerals)

theorem body_isMarkFree {step : Step} (hPlain : step.IsPlain) :
    ∀ symbol ∈ step.body, ¬ IsMark symbol := by
  cases step with
  | member name => exact hPlain
  | item position =>
      intro symbol hMem hMark
      rcases List.mem_append.1 hMem with hNumeral | hEnd
      · rcases Integer.mem_render hNumeral with hDigit | hSign
        · rcases hMark with rfl | rfl
          · cases hDigit
          · cases hDigit
        · rw [hSign] at hMark
          revert hMark
          decide
      · rw [List.mem_singleton.1 hEnd] at hMark
        revert hMark
        decide

/-! ### Paths -/

theorem toList_extend (path : String) (step : Step) :
    (step.extend path).toList = path.toList ++ step.segment := by
  cases step with
  | member name => simp [extend, Comparison.memberPath, segment, mark, body]
  | item position => simp [extend, Comparison.itemPath, segment, mark, body]

theorem toList_pathFrom (path : String) (steps : List Step) :
    (pathFrom path steps).toList = path.toList ++ steps.flatMap segment := by
  induction steps generalizing path with
  | nil => simp [pathFrom]
  | cons step rest ih =>
      have hRest := ih (step.extend path)
      rw [toList_extend, List.append_assoc, ← List.flatMap_cons] at hRest
      exact hRest

private theorem takeWhile_body {step : Step} (hPlain : step.IsPlain) (rest : List Step) :
    (step.body ++ rest.flatMap segment).takeWhile (fun symbol => ¬ IsMark symbol) =
      step.body := by
  have hStop : (rest.flatMap segment).takeWhile (fun symbol => ¬ IsMark symbol) = [] := by
    cases rest with
    | nil => rfl
    | cons next others => simp [segment, isMark_mark]
  rw [List.takeWhile_append_of_pos, hStop, List.append_nil]
  intro symbol hMem
  exact decide_eq_true (body_isMarkFree hPlain symbol hMem)

theorem flatMap_segment_injective {first second : List Step}
    (hFirst : ∀ step ∈ first, step.IsPlain) (hSecond : ∀ step ∈ second, step.IsPlain)
    (hSame : first.flatMap segment = second.flatMap segment) : first = second := by
  -- The first segment ends where the next mark stands, on either side.
  induction first generalizing second with
  | nil =>
      cases second with
      | nil => rfl
      | cons step rest => cases hSame
  | cons step rest ih =>
      cases second with
      | nil => cases hSame
      | cons step' rest' =>
          rw [List.forall_mem_cons] at hFirst hSecond
          rw [List.flatMap_cons, List.flatMap_cons, segment, segment, List.cons_append,
            List.cons_append, List.cons.injEq] at hSame
          have hBody : step.body = step'.body := by
            rw [← takeWhile_body hFirst.1 rest, ← takeWhile_body hSecond.1 rest', hSame.2]
          have hRest := hSame.2
          rw [hBody] at hRest
          rw [eq_of_segment hSame.1 hBody,
            ih hFirst.2 hSecond.2 (List.append_cancel_left hRest)]

theorem pathFrom_injective {path : String} {first second : List Step}
    (hFirst : ∀ step ∈ first, step.IsPlain) (hSecond : ∀ step ∈ second, step.IsPlain)
    (hSame : pathFrom path first = pathFrom path second) : first = second := by
  have hSymbols := congrArg String.toList hSame
  rw [toList_pathFrom, toList_pathFrom] at hSymbols
  exact flatMap_segment_injective hFirst hSecond (List.append_cancel_left hSymbols)

end Step

end AnnotationDefaults
