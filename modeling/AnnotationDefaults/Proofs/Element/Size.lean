import AnnotationDefaults.Proofs.Element.Correspondence
import AnnotationDefaults.Proofs.Element.Decoding

set_option autoImplicit false

/-!
Sizes of values. A value has as many bytes as its shape says, and the size comes out the
same in eight-byte arithmetic, where it is a sum of sums: no partial sum exceeds the whole,
so none overflows as long as the size itself is an eight-byte number.
-/

namespace AnnotationDefaults

namespace Element

/-! ### Bytes -/

theorem length_flatMap_encodePair {pairs : List (UInt16 × DecodedElement)}
    (hValues : ∀ pair ∈ pairs, (encode pair.2).length = pair.2.encodedSize) :
    (pairs.flatMap encodePair).length = pairsSize pairs := by
  induction pairs with
  | nil => rfl
  | cons pair rest ih =>
      rw [List.forall_mem_cons] at hValues
      rw [List.flatMap_cons, List.length_append, ih hValues.2, encodePair, List.length_append,
        length_bigEndian, hValues.1, pairsSize]

theorem length_flatMap_encode {items : List DecodedElement}
    (hItems : ∀ item ∈ items, (encode item).length = item.encodedSize) :
    (items.flatMap encode).length = itemsSize items := by
  induction items with
  | nil => rfl
  | cons item rest ih =>
      rw [List.forall_mem_cons] at hItems
      rw [List.flatMap_cons, List.length_append, ih hItems.2, hItems.1, itemsSize]

theorem length_encode (value : DecodedElement) : (encode value).length = value.encodedSize := by
  induction value using inductionOn with
  | literal kind index => rfl
  | enumConstant typeName constantName => rfl
  | classLiteral descriptor => rfl
  | annotationValue typeName pairs ih =>
      rw [encode_eq, encodeFields, List.length_append, List.length_append, List.length_append,
        length_bigEndian, length_bigEndian, length_flatMap_encodePair ih, encodedSize,
        List.length_singleton]
      omega
  | array items ih =>
      rw [encode_eq, encodeFields, List.length_append, List.length_append, length_bigEndian,
        length_flatMap_encode ih, encodedSize, List.length_singleton]
      omega

/-! ### Eight-byte arithmetic -/

def checkedSum (left right : UInt64) : Option UInt64 :=
  if left.toNat + right.toNat < UInt64.size then some (left + right) else none

/-- The result is this natural, and there is one exactly if it is an eight-byte number. -/
def Denotes (result : Option UInt64) (value : Nat) : Prop :=
  ∀ size, result = some size ↔ size.toNat = value

theorem denotes_some (size : UInt64) : Denotes (some size) size.toNat := by
  intro other
  rw [Option.some.injEq, ← UInt64.toNat_inj]
  exact eq_comm

theorem denotes_checkedSum (left right : UInt64) :
    Denotes (checkedSum left right) (left.toNat + right.toNat) := by
  by_cases hFits : left.toNat + right.toNat < UInt64.size
  · have hSum : (left + right).toNat = left.toNat + right.toNat := by
      rw [UInt64.toNat_add, Nat.mod_eq_of_lt hFits]
    rw [checkedSum, if_pos hFits, ← hSum]
    exact denotes_some _
  · intro size
    have hSize : size.toNat < UInt64.size := size.toNat_lt
    rw [checkedSum, if_neg hFits]
    constructor
    · intro hNone
      cases hNone
    · intro hEqual
      exact absurd (hEqual ▸ hSize) hFits

/-- A partial result that is at most the whole overflows only if the whole does. -/
theorem Denotes.bind {first : Option UInt64} {next : UInt64 → Option UInt64} {part whole : Nat}
    (hFirst : Denotes first part) (hNext : ∀ size, size.toNat = part → Denotes (next size) whole)
    (hPart : part ≤ whole) : Denotes (first >>= next) whole := by
  intro size
  simp only [Option.bind_eq_bind, Option.bind_eq_some_iff, hFirst _]
  constructor
  · rintro ⟨between, hBetween, hSize⟩
    exact (hNext between hBetween size).1 hSize
  · intro hSize
    have hFits : part < UInt64.size := (hSize ▸ hPart).trans_lt size.toNat_lt
    have hBetween : (UInt64.ofNat part).toNat = part := UInt64.toNat_ofNat_of_lt' hFits
    exact ⟨UInt64.ofNat part, hBetween, (hNext _ hBetween size).2 hSize⟩

variable {α : Type}

mutual

/-- The size of a value with every sum checked: a byte for the tag and then the fields. -/
def checkedSize : Element α → Option UInt64
  | .literal _ _ => checkedSum 1 2
  | .enumConstant _ _ => checkedSum 1 4
  | .classLiteral _ => checkedSum 1 2
  | .annotationValue _ pairs => do checkedSum 1 (← checkedSum 4 (← checkedPairs 0 pairs))
  | .array items => do checkedSum 1 (← checkedSum 2 (← checkedItems 0 items))

def checkedPairs (total : UInt64) : List (α × Element α) → Option UInt64
  | [] => some total
  | (_, value) :: rest => do
      checkedPairs (← checkedSum total (← checkedSum 2 (← checkedSize value))) rest

def checkedItems (total : UInt64) : List (Element α) → Option UInt64
  | [] => some total
  | item :: rest => do checkedItems (← checkedSum total (← checkedSize item)) rest

end

mutual

theorem denotes_checkedSize : (value : Element α) → Denotes value.checkedSize value.encodedSize
  | .literal _ _ => denotes_checkedSum 1 2
  | .enumConstant _ _ => denotes_checkedSum 1 4
  | .classLiteral _ => denotes_checkedSum 1 2
  | .annotationValue _ pairs => by
      rw [encodedSize]
      refine (denotes_checkedPairs 0 pairs).bind (fun fields hFields => ?_) (by simp)
      refine (denotes_checkedSum 4 fields).bind (fun size hSize => ?_) (by simp [hFields])
      have hWhole : 5 + pairsSize pairs = (1 : UInt64).toNat + size.toNat := by
        simp [hSize, hFields]
        omega
      rw [hWhole]
      exact denotes_checkedSum 1 size
  | .array items => by
      rw [encodedSize]
      refine (denotes_checkedItems 0 items).bind (fun fields hFields => ?_) (by simp)
      refine (denotes_checkedSum 2 fields).bind (fun size hSize => ?_) (by simp [hFields])
      have hWhole : 3 + itemsSize items = (1 : UInt64).toNat + size.toNat := by
        simp [hSize, hFields]
        omega
      rw [hWhole]
      exact denotes_checkedSum 1 size

theorem denotes_checkedPairs :
    (total : UInt64) → (pairs : List (α × Element α)) →
      Denotes (checkedPairs total pairs) (total.toNat + pairsSize pairs)
  | total, [] => denotes_some total
  | total, (_, value) :: rest => by
      rw [pairsSize]
      refine (denotes_checkedSize value).bind (fun size hSize => ?_) (by omega)
      refine (denotes_checkedSum 2 size).bind (fun pair hPair => ?_) (by simp [hSize]; omega)
      refine (denotes_checkedSum total pair).bind (fun sum hSum => ?_) (by simp [hPair, hSize])
      have hWhole : total.toNat + (2 + value.encodedSize + pairsSize rest) =
          sum.toNat + pairsSize rest := by
        simp [hSum, hPair, hSize]
        omega
      rw [hWhole]
      exact denotes_checkedPairs sum rest

theorem denotes_checkedItems :
    (total : UInt64) → (items : List (Element α)) →
      Denotes (checkedItems total items) (total.toNat + itemsSize items)
  | total, [] => denotes_some total
  | total, item :: rest => by
      rw [itemsSize]
      refine (denotes_checkedSize item).bind (fun size hSize => ?_) (by omega)
      refine (denotes_checkedSum total size).bind (fun sum hSum => ?_) (by simp [hSize])
      have hWhole : total.toNat + (item.encodedSize + itemsSize rest) =
          sum.toNat + itemsSize rest := by
        simp [hSum, hSize]
        omega
      rw [hWhole]
      exact denotes_checkedItems sum rest

end

end Element

end AnnotationDefaults
