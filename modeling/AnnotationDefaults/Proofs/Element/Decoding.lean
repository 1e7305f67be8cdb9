import AnnotationDefaults.Element.Format
import AnnotationDefaults.Proofs.Bytes.Format
import AnnotationDefaults.Proofs.Text.Hexadecimal

set_option autoImplicit false

/-!
Decoding of values undoes encoding. The reader accepts exactly the bytes of the values
whose counts take two bytes and whose levels are within the limit, at every level by the
same argument: one byte for the tag, then the fields of that tag, children one level lower.
-/

namespace AnnotationDefaults.Element

open Decoder (Reads run_bind_eq_ok_iff run_pure_eq_ok_iff reads_byte reads_short)

variable {α : Type}

/-! ### Values that have bytes of their own -/

/-- Every annotation and every array, at any depth, has so few children that a two-byte
number counts them. -/
inductive CountsFit : Element α → Prop
  | literal {kind : LiteralTag} {value : α} : CountsFit (.literal kind value)
  | enumConstant {typeName constantName : α} : CountsFit (.enumConstant typeName constantName)
  | classLiteral {descriptor : α} : CountsFit (.classLiteral descriptor)
  | annotationValue {typeName : α} {pairs : List (α × Element α)}
      (hCount : pairs.length ≤ 65535) (hValues : ∀ pair ∈ pairs, CountsFit pair.2) :
      CountsFit (.annotationValue typeName pairs)
  | array {items : List (Element α)} (hCount : items.length ≤ 65535)
      (hItems : ∀ item ∈ items, CountsFit item) : CountsFit (.array items)

/-- The counts fit, and at most so many values lie one inside the other. -/
def FitsWithin (levels : Nat) (value : Element α) : Prop :=
  value.CountsFit ∧ value.depth ≤ levels

theorem pairsDepth_le_iff {pairs : List (α × Element α)} {levels : Nat} :
    pairsDepth pairs ≤ levels ↔ ∀ pair ∈ pairs, pair.2.depth ≤ levels := by
  induction pairs with
  | nil => simp [pairsDepth]
  | cons pair rest ih => rw [pairsDepth, List.forall_mem_cons, ← ih, Nat.max_le]

theorem itemsDepth_le_iff {items : List (Element α)} {levels : Nat} :
    itemsDepth items ≤ levels ↔ ∀ item ∈ items, item.depth ≤ levels := by
  induction items with
  | nil => simp [itemsDepth]
  | cons item rest ih => rw [itemsDepth, List.forall_mem_cons, ← ih, Nat.max_le]

theorem fitsWithin_annotationValue_iff {typeName : α} {pairs : List (α × Element α)}
    {levels : Nat} :
    FitsWithin (levels + 1) (.annotationValue typeName pairs) ↔
      pairs.length < UInt16.size ∧ ∀ pair ∈ pairs, FitsWithin levels pair.2 := by
  rw [FitsWithin, depth, Nat.add_le_add_iff_right, pairsDepth_le_iff]
  constructor
  · rintro ⟨hCounts, hDepth⟩
    rcases hCounts with _ | _ | _ | ⟨hCount, hValues⟩
    exact ⟨Nat.lt_succ_of_le hCount, fun pair hMem => ⟨hValues pair hMem, hDepth pair hMem⟩⟩
  · rintro ⟨hCount, hPairs⟩
    exact ⟨.annotationValue (Nat.le_of_lt_succ hCount) fun pair hMem => (hPairs pair hMem).1,
      fun pair hMem => (hPairs pair hMem).2⟩

theorem fitsWithin_array_iff {items : List (Element α)} {levels : Nat} :
    FitsWithin (levels + 1) (.array items) ↔
      items.length < UInt16.size ∧ ∀ item ∈ items, FitsWithin levels item := by
  rw [FitsWithin, depth, Nat.add_le_add_iff_right, itemsDepth_le_iff]
  constructor
  · rintro ⟨hCounts, hDepth⟩
    rcases hCounts with _ | _ | _ | _ | ⟨hCount, hItems⟩
    exact ⟨Nat.lt_succ_of_le hCount, fun item hMem => ⟨hItems item hMem, hDepth item hMem⟩⟩
  · rintro ⟨hCount, hItems⟩
    exact ⟨.array (Nat.le_of_lt_succ hCount) fun item hMem => (hItems item hMem).1,
      fun item hMem => (hItems item hMem).2⟩

/-! ### Tags and fields -/

def tagByte (tag : Tag) : UInt8 := UInt8.ofNat tag.symbol.toNat

theorem tagOfByte?_eq_some_iff {byte : UInt8} {tag : Tag} :
    tagOfByte? byte = some tag ↔ byte = tagByte tag := by
  constructor
  · intro hTag
    have hSymbol := Tag.symbol_of_ofSymbol? hTag
    have hByte := byte.toNat_lt
    have hCode : (Char.ofNat byte.toNat).toNat = byte.toNat :=
      toNat_ofNat_of_isValidChar (Or.inl (by omega))
    rw [tagByte, hSymbol, hCode, UInt8.ofNat_toNat]
  · rintro rfl
    cases tag with
    | literal kind => cases kind <;> rfl
    | enumConstant => rfl
    | classLiteral => rfl
    | annotationValue => rfl
    | array => rfl

def encodePair (pair : UInt16 × DecodedElement) : List UInt8 :=
  bigEndian 2 pair.1.toNat ++ encode pair.2

theorem encodePairs_eq_flatMap (pairs : List (UInt16 × DecodedElement)) :
    encodePairs pairs = pairs.flatMap encodePair := by
  induction pairs with
  | nil => rfl
  | cons pair rest ih =>
      rw [List.flatMap_cons, ← ih]
      rfl

theorem encodeItems_eq_flatMap (items : List DecodedElement) :
    encodeItems items = items.flatMap encode := by
  induction items with
  | nil => rfl
  | cons item rest ih => rw [encodeItems, List.flatMap_cons, ih]

def encodeFields : DecodedElement → List UInt8
  | .literal _ value => bigEndian 2 value.toNat
  | .enumConstant typeName constantName =>
      bigEndian 2 typeName.toNat ++ bigEndian 2 constantName.toNat
  | .classLiteral descriptor => bigEndian 2 descriptor.toNat
  | .annotationValue typeName pairs =>
      bigEndian 2 typeName.toNat ++ (bigEndian 2 pairs.length ++ pairs.flatMap encodePair)
  | .array items => bigEndian 2 items.length ++ items.flatMap encode

theorem encode_eq (value : DecodedElement) :
    encode value = [tagByte value.tag] ++ encodeFields value := by
  cases value with
  | literal kind value => rfl
  | enumConstant typeName constantName => rfl
  | classLiteral descriptor => rfl
  | annotationValue typeName pairs =>
      rw [encodeFields, ← encodePairs_eq_flatMap, ← List.append_assoc]
      rfl
  | array items =>
      rw [encodeFields, ← encodeItems_eq_flatMap]
      rfl

def decodePair (levels : Nat) : Decoder (UInt16 × DecodedElement) := do
  let name ← Decoder.short
  return (name, ← decodeWithin levels)

def decodeFields (levels : Nat) : Tag → Decoder DecodedElement
  | .literal kind => do return .literal kind (← Decoder.short)
  | .enumConstant => do return .enumConstant (← Decoder.short) (← Decoder.short)
  | .classLiteral => do return .classLiteral (← Decoder.short)
  | .annotationValue => do
      let typeName ← Decoder.short
      return .annotationValue typeName (← Decoder.counted (decodePair levels))
  | .array => do return .array (← Decoder.counted (decodeWithin levels))

variable {cursor after : Cursor} {value : DecodedElement} {levels : Nat}

theorem run_decodeWithin_succ_iff :
    (decodeWithin (levels + 1)).run cursor = .ok (value, after) ↔
      ∃ tag between, cursor.Spans [tagByte tag] between ∧
        (decodeFields levels tag).run between = .ok (value, after) := by
  constructor
  · intro hRun
    obtain ⟨offset, start, hOffset, hRun⟩ := run_bind_eq_ok_iff.1 hRun
    cases hOffset
    obtain ⟨byte, between, hByte, hRun⟩ := run_bind_eq_ok_iff.1 hRun
    cases hTag : tagOfByte? byte with
    | none =>
        rw [hTag] at hRun
        cases hRun
    | some tag =>
        obtain ⟨-, hSpans⟩ := (reads_byte _ _ _).1 hByte
        rw [tagOfByte?_eq_some_iff.1 hTag] at hSpans
        refine ⟨tag, between, hSpans, ?_⟩
        rw [hTag] at hRun
        cases tag <;> exact hRun
  · rintro ⟨tag, between, hSpans, hRun⟩
    refine run_bind_eq_ok_iff.2 ⟨cursor.offset, cursor, rfl, ?_⟩
    refine run_bind_eq_ok_iff.2 ⟨tagByte tag, between, (reads_byte _ _ _).2 ⟨trivial, hSpans⟩, ?_⟩
    rw [tagOfByte?_eq_some_iff.2 rfl]
    cases tag <;> exact hRun

/-! ### Values level by level -/

theorem reads_decodePair (hLevels : Reads (decodeWithin levels) encode (FitsWithin levels)) :
    Reads (decodePair levels) encodePair fun pair => FitsWithin levels pair.2 := by
  intro cursor pair after
  simp only [decodePair, encodePair, run_bind_eq_ok_iff, run_pure_eq_ok_iff, reads_short _ _ _,
    hLevels _ _ _, Cursor.spans_append_iff]
  constructor
  · rintro ⟨name, between, ⟨-, hName⟩, value, _, ⟨hFits, hValue⟩, rfl, rfl⟩
    exact ⟨hFits, between, hName, hValue⟩
  · rintro ⟨hFits, between, hName, hValue⟩
    exact ⟨pair.1, between, ⟨trivial, hName⟩, pair.2, after, ⟨hFits, hValue⟩, rfl, rfl⟩

theorem run_decodeFields_iff (hLevels : Reads (decodeWithin levels) encode (FitsWithin levels))
    {tag : Tag} :
    (decodeFields levels tag).run cursor = .ok (value, after) ↔
      value.tag = tag ∧ FitsWithin (levels + 1) value ∧
        cursor.Spans (encodeFields value) after := by
  cases tag with
  | literal kind =>
      simp only [decodeFields, run_bind_eq_ok_iff, run_pure_eq_ok_iff, reads_short _ _ _]
      constructor
      · rintro ⟨index, _, ⟨-, hIndex⟩, rfl, rfl⟩
        exact ⟨rfl, ⟨.literal, Nat.le_add_left 1 levels⟩, hIndex⟩
      · rintro ⟨hTag, -, hSpans⟩
        cases value with
        | literal kind' index =>
            cases hTag
            exact ⟨index, after, ⟨trivial, hSpans⟩, rfl, rfl⟩
        | _ => cases hTag
  | enumConstant =>
      simp only [decodeFields, run_bind_eq_ok_iff, run_pure_eq_ok_iff, reads_short _ _ _]
      constructor
      · rintro ⟨typeName, _, ⟨-, hType⟩, constantName, _, ⟨-, hName⟩, rfl, rfl⟩
        exact ⟨rfl, ⟨.enumConstant, Nat.le_add_left 1 levels⟩, hType.append hName⟩
      · rintro ⟨hTag, -, hSpans⟩
        cases value with
        | enumConstant typeName constantName =>
            obtain ⟨between, hType, hName⟩ := Cursor.spans_append_iff.1 hSpans
            exact ⟨typeName, between, ⟨trivial, hType⟩, constantName, after, ⟨trivial, hName⟩,
              rfl, rfl⟩
        | _ => cases hTag
  | classLiteral =>
      simp only [decodeFields, run_bind_eq_ok_iff, run_pure_eq_ok_iff, reads_short _ _ _]
      constructor
      · rintro ⟨index, _, ⟨-, hIndex⟩, rfl, rfl⟩
        exact ⟨rfl, ⟨.classLiteral, Nat.le_add_left 1 levels⟩, hIndex⟩
      · rintro ⟨hTag, -, hSpans⟩
        cases value with
        | classLiteral index => exact ⟨index, after, ⟨trivial, hSpans⟩, rfl, rfl⟩
        | _ => cases hTag
  | annotationValue =>
      simp only [decodeFields, run_bind_eq_ok_iff, run_pure_eq_ok_iff, reads_short _ _ _,
        (reads_decodePair hLevels).counted _ _ _]
      constructor
      · rintro ⟨typeName, _, ⟨-, hType⟩, pairs, _, ⟨hFits, hPairs⟩, rfl, rfl⟩
        exact ⟨rfl, fitsWithin_annotationValue_iff.2 hFits, hType.append hPairs⟩
      · rintro ⟨hTag, hFits, hSpans⟩
        cases value with
        | annotationValue typeName pairs =>
            obtain ⟨between, hType, hPairs⟩ := Cursor.spans_append_iff.1 hSpans
            exact ⟨typeName, between, ⟨trivial, hType⟩, pairs, after,
              ⟨fitsWithin_annotationValue_iff.1 hFits, hPairs⟩, rfl, rfl⟩
        | _ => cases hTag
  | array =>
      simp only [decodeFields, run_bind_eq_ok_iff, run_pure_eq_ok_iff, hLevels.counted _ _ _]
      constructor
      · rintro ⟨items, _, ⟨hFits, hItems⟩, rfl, rfl⟩
        exact ⟨rfl, fitsWithin_array_iff.2 hFits, hItems⟩
      · rintro ⟨hTag, hFits, hSpans⟩
        cases value with
        | array items =>
            exact ⟨items, after, ⟨fitsWithin_array_iff.1 hFits, hSpans⟩, rfl, rfl⟩
        | _ => cases hTag

theorem one_le_depth (value : Element α) : 1 ≤ value.depth := by
  cases value <;> simp only [depth, Nat.le_refl, Nat.le_add_left]

theorem reads_decodeWithin (levels : Nat) :
    Reads (decodeWithin levels) encode (FitsWithin levels) := by
  -- Children are read with one level less, and every value takes up a level.
  induction levels with
  | zero =>
      intro cursor value after
      constructor
      · intro hRun
        cases hRun
      · rintro ⟨⟨-, hDepth⟩, -⟩
        have hPositive := one_le_depth value
        omega
  | succ levels ih =>
      intro cursor value after
      rw [run_decodeWithin_succ_iff, encode_eq, Cursor.spans_append_iff]
      constructor
      · rintro ⟨tag, between, hTag, hRun⟩
        obtain ⟨rfl, hFits, hSpans⟩ := (run_decodeFields_iff ih).1 hRun
        exact ⟨hFits, between, hTag, hSpans⟩
      · rintro ⟨hFits, between, hTag, hSpans⟩
        exact ⟨value.tag, between, hTag, (run_decodeFields_iff ih).2 ⟨rfl, hFits, hSpans⟩⟩

/-! ### Values in a byte string -/

/-- Decoding from an offset gives a value and stops at an offset if and only if the bytes
between them encode the value, its counts take two bytes and it has at most 64 levels. -/
theorem decode_into_eq_ok_iff (bytes : List UInt8) (start : Nat) (value : DecodedElement)
    (after : Cursor) :
    decode.run (.into bytes start) = .ok (value, after) ↔
      ∃ stop, after = .into bytes stop ∧ stop ≤ bytes.length ∧
        bytes.extract start stop = encode value ∧ value.CountsFit ∧ value.depth ≤ 64 := by
  have hSome : encode value ≠ [] := by
    rw [encode_eq]
    exact List.cons_ne_nil _ _
  rw [decode, reads_decodeWithin _ _ _ _, Cursor.into_spans_iff hSome]
  constructor
  · rintro ⟨⟨hCounts, hDepth⟩, stop, hAfter, hStop, hBytes⟩
    exact ⟨stop, hAfter, hStop, hBytes, hCounts, hDepth⟩
  · rintro ⟨stop, hAfter, hStop, hBytes, hCounts, hDepth⟩
    exact ⟨⟨hCounts, hDepth⟩, stop, hAfter, hStop, hBytes⟩

end AnnotationDefaults.Element
