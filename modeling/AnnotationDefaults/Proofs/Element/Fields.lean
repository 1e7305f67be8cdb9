import AnnotationDefaults.Proofs.Element.Correspondence
import AnnotationDefaults.Proofs.Element.Decoding

set_option autoImplicit false

/-!
The fields of an encoded value. Its bytes are a sequence of tags, leaves and counts that a
grammar describes without any tree: the grammar says which fields are leaves and what role each
has. The bytes of a value can be cut into fields in one way only, so its leaves and their order
are a matter of the bytes alone.
-/

namespace AnnotationDefaults

theorem exists_map_eq {α β : Type} {holds : α → Prop} {convert : α → β} {items : List β}
    (hItems : ∀ item ∈ items, ∃ source, holds source ∧ convert source = item) :
    ∃ sources, (∀ source ∈ sources, holds source) ∧ List.map convert sources = items := by
  induction items with
  | nil => exact ⟨[], List.forall_mem_nil _, rfl⟩
  | cons item rest ih =>
      rw [List.forall_mem_cons] at hItems
      obtain ⟨source, hHolds, rfl⟩ := hItems.1
      obtain ⟨sources, hSources, rfl⟩ := ih hItems.2
      exact ⟨source :: sources, List.forall_mem_cons.2 ⟨hHolds, hSources⟩, rfl⟩

/-- One field of an encoded value: its tag, a leaf in the role that its place gives it, or the
number of children that follow. -/
inductive Field (α : Type) where
  | tag (symbol : Tag)
  | leaf (role : LeafRole) (value : α)
  | count (children : UInt16)

namespace Field

variable {α : Type}

def leaf? : Field α → Option (LeafRole × α)
  | .leaf role value => some (role, value)
  | _ => none

def bytes : Field UInt16 → List UInt8
  | .tag symbol => [Element.tagByte symbol]
  | .leaf _ index => bigEndian 2 index.toNat
  | .count children => bigEndian 2 children.toNat

def leaves (fields : List (Field α)) : List (LeafRole × α) := fields.filterMap leaf?

/-- The fields of one value: a tag and behind it the leaves of that tag or counted children,
each named value behind its name. -/
inductive IsValue : List (Field α) → Prop
  | literal {kind : LiteralTag} {value : α} :
      IsValue [.tag (.literal kind), .leaf (.literal kind) value]
  | enumConstant {typeName constantName : α} :
      IsValue [.tag .enumConstant, .leaf .enumType typeName, .leaf .enumConstant constantName]
  | classLiteral {descriptor : α} :
      IsValue [.tag .classLiteral, .leaf .classDescriptor descriptor]
  | annotationValue {typeName : α} {count : UInt16} {pairs : List (α × List (Field α))}
      (hCount : count.toNat = pairs.length) (hValues : ∀ pair ∈ pairs, IsValue pair.2) :
      IsValue (.tag .annotationValue :: .leaf .annotationType typeName :: .count count ::
        pairs.flatMap fun pair => .leaf .pairName pair.1 :: pair.2)
  | array {count : UInt16} {items : List (List (Field α))} (hCount : count.toNat = items.length)
      (hItems : ∀ item ∈ items, IsValue item) :
      IsValue (.tag .array :: .count count :: items.flatten)

end Field

namespace Element

variable {α : Type}

/-! ### The fields of a tree -/

mutual

def fields : Element α → List (Field α)
  | .literal kind value => [.tag (.literal kind), .leaf (.literal kind) value]
  | .enumConstant typeName constantName =>
      [.tag .enumConstant, .leaf .enumType typeName, .leaf .enumConstant constantName]
  | .classLiteral descriptor => [.tag .classLiteral, .leaf .classDescriptor descriptor]
  | .annotationValue typeName pairs =>
      .tag .annotationValue :: .leaf .annotationType typeName ::
        .count (.ofNat pairs.length) :: pairsFields pairs
  | .array items => .tag .array :: .count (.ofNat items.length) :: itemsFields items

def pairsFields : List (α × Element α) → List (Field α)
  | [] => []
  | (name, value) :: rest => .leaf .pairName name :: fields value ++ pairsFields rest

def itemsFields : List (Element α) → List (Field α)
  | [] => []
  | item :: rest => fields item ++ itemsFields rest

end

theorem pairsFields_eq_flatMap (pairs : List (α × Element α)) :
    pairsFields pairs = pairs.flatMap fun pair => .leaf .pairName pair.1 :: fields pair.2 := by
  induction pairs with
  | nil => rfl
  | cons pair rest ih =>
      rw [List.flatMap_cons, ← ih]
      rfl

theorem itemsFields_eq_flatMap (items : List (Element α)) :
    itemsFields items = items.flatMap fields := by
  induction items with
  | nil => rfl
  | cons item rest ih => rw [itemsFields, List.flatMap_cons, ih]

theorem toNat_ofNat_length {β : Type} {children : List β} (hCount : children.length ≤ 65535) :
    (UInt16.ofNat children.length).toNat = children.length :=
  UInt16.toNat_ofNat_of_lt' (Nat.lt_succ_of_le hCount)

theorem length_le_of_count {β : Type} {count : UInt16} {children : List β}
    (hCount : count.toNat = children.length) : children.length ≤ 65535 := by
  rw [← hCount]
  exact Nat.le_of_lt_succ count.toNat_lt

theorem flatMap_bytes_fields {value : DecodedElement} (hCounts : value.CountsFit) :
    value.fields.flatMap Field.bytes = value.encode := by
  induction value using inductionOn with
  | literal kind index => simp [fields, Field.bytes, encode_eq, encodeFields, tag]
  | enumConstant typeName constantName =>
      simp [fields, Field.bytes, encode_eq, encodeFields, tag]
  | classLiteral descriptor => simp [fields, Field.bytes, encode_eq, encodeFields, tag]
  | annotationValue typeName pairs ih =>
      rcases hCounts with _ | _ | _ | ⟨hCount, hValues⟩
      have hPairs : (pairs.flatMap fun pair => .leaf .pairName pair.1 :: fields pair.2).flatMap
          Field.bytes = pairs.flatMap encodePair := by
        rw [List.flatMap_assoc]
        apply List.flatMap_congr
        intro pair hPair
        rw [List.flatMap_cons, ih pair hPair (hValues pair hPair)]
        rfl
      rw [encode_eq, encodeFields, fields, pairsFields_eq_flatMap, List.flatMap_cons,
        List.flatMap_cons, List.flatMap_cons, hPairs, Field.bytes, Field.bytes, Field.bytes,
        toNat_ofNat_length hCount]
      rfl
  | array items ih =>
      rcases hCounts with _ | _ | _ | _ | ⟨hCount, hItems⟩
      have hChildren : (items.flatMap fields).flatMap Field.bytes = items.flatMap encode := by
        rw [List.flatMap_assoc]
        apply List.flatMap_congr
        intro item hItem
        exact ih item hItem (hItems item hItem)
      rw [encode_eq, encodeFields, fields, itemsFields_eq_flatMap, List.flatMap_cons,
        List.flatMap_cons, hChildren, Field.bytes, Field.bytes, toNat_ofNat_length hCount]
      rfl

/-! ### The grammar and the trees -/

theorem isValue_fields {value : Element α} (hCounts : value.CountsFit) :
    Field.IsValue value.fields := by
  induction hCounts with
  | literal => exact .literal
  | enumConstant => exact .enumConstant
  | classLiteral => exact .classLiteral
  | @annotationValue typeName pairs hCount hValues ih =>
      have hPairs : (pairs.flatMap fun pair => Field.leaf .pairName pair.1 :: fields pair.2) =
          (pairs.map fun pair => (pair.1, fields pair.2)).flatMap
            fun pair => .leaf .pairName pair.1 :: pair.2 := by
        rw [List.flatMap_map]
      rw [fields, pairsFields_eq_flatMap, hPairs]
      apply Field.IsValue.annotationValue
      · rw [toNat_ofNat_length hCount, List.length_map]
      · rw [List.forall_mem_map]
        exact ih
  | array hCount hItems ih =>
      rw [fields, itemsFields_eq_flatMap]
      apply Field.IsValue.array
      · rw [toNat_ofNat_length hCount, List.length_map]
      · rw [List.forall_mem_map]
        exact ih

theorem exists_of_isValue {fields : List (Field α)} (hFields : Field.IsValue fields) :
    ∃ value : Element α, value.CountsFit ∧ value.fields = fields := by
  induction hFields with
  | literal => exact ⟨.literal _ _, .literal, rfl⟩
  | enumConstant => exact ⟨.enumConstant _ _, .enumConstant, rfl⟩
  | classLiteral => exact ⟨.classLiteral _, .classLiteral, rfl⟩
  | @annotationValue typeName count pairs hCount hValues ih =>
      have hSources : ∀ pair ∈ pairs, ∃ source : α × Element α,
          source.2.CountsFit ∧ (source.1, source.2.fields) = pair := by
        intro pair hPair
        obtain ⟨value, hFits, hFields⟩ := ih pair hPair
        exact ⟨(pair.1, value), hFits, Prod.ext rfl hFields⟩
      obtain ⟨sources, hFits, rfl⟩ := exists_map_eq hSources
      rw [List.length_map] at hCount
      have hBound := length_le_of_count hCount
      refine ⟨.annotationValue typeName sources, .annotationValue hBound hFits, ?_⟩
      rw [Element.fields, pairsFields_eq_flatMap, ← hCount, UInt16.ofNat_toNat, List.flatMap_map]
  | @array count items hCount hItems ih =>
      obtain ⟨sources, hFits, rfl⟩ := exists_map_eq ih
      rw [List.length_map] at hCount
      have hBound := length_le_of_count hCount
      refine ⟨.array sources, .array hBound hFits, ?_⟩
      rw [Element.fields, itemsFields_eq_flatMap, ← hCount, UInt16.ofNat_toNat]
      rfl

/-! ### One way to cut the bytes -/

theorem encode_injective {first second : DecodedElement} (hFirst : first.CountsFit)
    (hSecond : second.CountsFit) (hBytes : first.encode = second.encode) : first = second := by
  -- A reader that allows for the deeper of the two reads both from the same bytes.
  have hReads := reads_decodeWithin (max first.depth second.depth)
  have hSpans := Cursor.ofBytes_spans_self first.encode
  have hRun := (hReads _ _ _).2 ⟨⟨hFirst, Nat.le_max_left _ _⟩, hSpans⟩
  rw [hBytes] at hSpans hRun
  have hOther := (hReads _ _ _).2 ⟨⟨hSecond, Nat.le_max_right _ _⟩, hSpans⟩
  rw [hRun] at hOther
  cases hOther
  rfl

theorem fields_unique {value : DecodedElement} (hCounts : value.CountsFit)
    {fields : List (Field UInt16)} (hFields : Field.IsValue fields)
    (hBytes : fields.flatMap Field.bytes = value.encode) : fields = value.fields := by
  obtain ⟨other, hOther, rfl⟩ := exists_of_isValue hFields
  rw [flatMap_bytes_fields hOther] at hBytes
  rw [encode_injective hOther hCounts hBytes]

end Element

end AnnotationDefaults
