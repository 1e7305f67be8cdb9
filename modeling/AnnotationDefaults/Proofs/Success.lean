set_option autoImplicit false

/-!
When a computation that may fail succeeds. The readers, renderers and compilers of
the library chain such computations, and their proofs take them apart with these.
-/

namespace AnnotationDefaults

variable {ε ε' α β : Type}

theorem ok_bind (value : α) (next : α → Except ε β) : (.ok value >>= next) = next value := rfl

theorem error_bind (cause : ε) (next : α → Except ε β) :
    (.error cause >>= next) = (.error cause : Except ε β) := rfl

theorem bind_eq_ok_iff {first : Except ε α} {next : α → Except ε β} {result : β} :
    (first >>= next) = .ok result ↔ ∃ value, first = .ok value ∧ next value = .ok result := by
  cases first with
  | error cause =>
      constructor
      · intro hResult
        cases hResult
      · intro hGiven
        rcases hGiven with ⟨value, hValue, -⟩
        cases hValue
  | ok value =>
      constructor
      · intro hResult
        exact ⟨value, rfl, hResult⟩
      · intro hGiven
        rcases hGiven with ⟨value', hValue, hResult⟩
        cases hValue
        exact hResult

theorem map_eq_ok_iff {first : Except ε α} {convert : α → β} {result : β} :
    first.map convert = .ok result ↔ ∃ value, first = .ok value ∧ convert value = result := by
  cases first with
  | error cause =>
      constructor
      · intro hResult
        cases hResult
      · intro hGiven
        rcases hGiven with ⟨value, hValue, -⟩
        cases hValue
  | ok value =>
      constructor
      · intro hResult
        exact ⟨value, rfl, Except.ok.inj hResult⟩
      · intro hGiven
        rcases hGiven with ⟨value', hValue, hResult⟩
        cases hValue
        exact congrArg Except.ok hResult

theorem map_eq_error_iff {first : Except ε α} {convert : α → β} {cause : ε} :
    first.map convert = .error cause ↔ first = .error cause := by
  cases first with
  | error other =>
      constructor
      · intro hFailed
        exact congrArg Except.error (Except.error.inj hFailed)
      · intro hFailed
        exact congrArg Except.error (Except.error.inj hFailed)
  | ok value =>
      constructor
      · intro hFailed
        cases hFailed
      · intro hFailed
        cases hFailed

theorem mapError_eq_ok_iff {first : Except ε α} {convert : ε → ε'} {result : α} :
    first.mapError convert = .ok result ↔ first = .ok result := by
  cases first with
  | error cause =>
      constructor
      · intro hResult
        cases hResult
      · intro hResult
        cases hResult
  | ok value =>
      constructor
      · intro hResult
        exact congrArg Except.ok (Except.ok.inj hResult)
      · intro hResult
        exact congrArg Except.ok (Except.ok.inj hResult)

theorem pure_eq_ok_iff {value result : α} :
    (pure value : Except ε α) = .ok result ↔ value = result := by
  constructor
  · exact Except.ok.inj
  · rintro rfl
    rfl

end AnnotationDefaults
