import AnnotationDefaults.Element.Format
import AnnotationDefaults.Proofs.Builder.Pool
import AnnotationDefaults.Proofs.Element.Traversal

set_option autoImplicit false

/-!
Literals in a pool. The constants of a literal have the shape of its value, and a value that
was made of a literal refers to just these constants, in every later pool as well.
-/

namespace AnnotationDefaults

/-- The constants that a value refers to, in the shape of the value. -/
def ConstantPool.resolve (pool : ConstantPool) (value : DecodedElement) :
    Except Fault (Element Constant) :=
  value.traverse fun _ index => pool.get index

namespace Literal

mutual

/-- The constants of a literal, in the shape of its value. Small numbers are widened, and a
character beyond the basic plane leaves its first unit. -/
def constants : Literal → Element Constant
  | .byte value => .literal .byte (.integer value.toInt32)
  | .char value =>
      .literal .char (.integer (Int32.ofInt ((Utf16.ofChar value).head?.getD 0).toNat))
  | .double bits => .literal .double (.double bits)
  | .float bits => .literal .float (.float bits)
  | .int value => .literal .int (.integer value)
  | .long value => .literal .long (.long value)
  | .short value => .literal .short (.integer value.toInt32)
  | .boolean value => .literal .boolean (.integer (if value then 1 else 0))
  | .string content => .literal .string (.utf8 content)
  | .enumConstant typeName constantName => .enumConstant (.utf8 typeName) (.utf8 constantName)
  | .classLiteral descriptor => .classLiteral (.utf8 descriptor)
  | .annotationValue typeName pairs => .annotationValue (.utf8 typeName) (pairConstants pairs)
  | .array items => .array (itemConstants items)

def pairConstants : List (String × Literal) → List (Constant × Element Constant)
  | [] => []
  | (name, value) :: rest => (.utf8 name, constants value) :: pairConstants rest

def itemConstants : List Literal → List (Element Constant)
  | [] => []
  | item :: rest => constants item :: itemConstants rest

end

theorem pairConstants_eq_map (pairs : List (String × Literal)) :
    pairConstants pairs = pairs.map fun pair => (.utf8 pair.1, pair.2.constants) := by
  induction pairs with
  | nil => rfl
  | cons pair rest ih => rw [pairConstants, List.map_cons, ih]

theorem itemConstants_eq_map (items : List Literal) :
    itemConstants items = items.map constants := by
  induction items with
  | nil => rfl
  | cons item rest ih => rw [itemConstants, List.map_cons, ih]

/-- The bytes are those of a value that refers to the literal's constants. -/
def IsWrittenAs (literal : Literal) (pool : ConstantPool) (bytes : List UInt8) : Prop :=
  ∃ value : DecodedElement, bytes = value.encode ∧ pool.resolve value = .ok literal.constants

end Literal

namespace PoolBuilder

theorem provides_refer (key : PoolKey) (out : List UInt8) :
    Provides (refer key out) fun pool bytes =>
      ∃ index : UInt16, bytes = out ++ bigEndian 2 index.toNat ∧ key.IsAt pool index :=
  (provides_intern key).convert (fun index => out ++ bigEndian 2 index.toNat)
    fun _ index hIndex => ⟨index, rfl, hIndex⟩

/-- A literal of one constant is its mark and the index of the constant. -/
private theorem provides_leaf (literal : Literal) (kind : LiteralTag) {constant : Constant}
    (key : PoolKey) (out : List UInt8) (hSymbol : literal.symbol = kind.symbol)
    (hConstants : literal.constants = .literal kind constant)
    (hKey : ∀ pool index, key.IsAt pool index → pool.get index = .ok constant) :
    Provides (refer key (out ++ [UInt8.ofNat literal.symbol.toNat])) fun pool bytes =>
      ∃ written, bytes = out ++ written ∧ literal.IsWrittenAs pool written := by
  refine (provides_refer key _).mono fun pool bytes hBytes => ?_
  obtain ⟨index, rfl, hIndex⟩ := hBytes
  refine ⟨_, List.append_assoc _ _ _, .literal kind index, by rw [hSymbol]; rfl, ?_⟩
  rw [hConstants]
  exact Element.traverse_literal_eq_ok_iff.2 ⟨constant, hKey pool index hIndex, rfl⟩

mutual

theorem provides_encodeInto (literal : Literal) (out : List UInt8) :
    Provides (encodeInto literal out) fun pool bytes =>
      ∃ written, bytes = out ++ written ∧ literal.IsWrittenAs pool written := by
  cases literal with
  | byte value =>
      rw [encodeInto]
      exact provides_leaf (.byte value) .byte (.integer value.toInt32) out rfl rfl
        fun _ _ hAt => hAt
  | char value =>
      rw [encodeInto]
      exact provides_leaf (.char value) .char (.integer _) out rfl rfl fun _ _ hAt => hAt
  | double bits =>
      rw [encodeInto]
      exact provides_leaf (.double bits) .double (.double bits) out rfl rfl fun _ _ hAt => hAt
  | float bits =>
      rw [encodeInto]
      exact provides_leaf (.float bits) .float (.float bits) out rfl rfl fun _ _ hAt => hAt
  | int value =>
      rw [encodeInto]
      exact provides_leaf (.int value) .int (.integer value) out rfl rfl fun _ _ hAt => hAt
  | long value =>
      rw [encodeInto]
      exact provides_leaf (.long value) .long (.long value) out rfl rfl fun _ _ hAt => hAt
  | short value =>
      rw [encodeInto]
      exact provides_leaf (.short value) .short (.integer value.toInt32) out rfl rfl
        fun _ _ hAt => hAt
  | boolean value =>
      rw [encodeInto]
      exact provides_leaf (.boolean value) .boolean (.integer _) out rfl rfl fun _ _ hAt => hAt
  | string content =>
      rw [encodeInto]
      exact provides_leaf (.string content) .string (.utf8 content) out rfl rfl fun _ _ hAt => hAt
  | classLiteral descriptor =>
      rw [encodeInto]
      refine (provides_refer (.utf8 descriptor) _).mono fun pool bytes hBytes => ?_
      obtain ⟨index, rfl, hIndex⟩ := hBytes
      exact ⟨_, List.append_assoc _ _ _, .classLiteral index, rfl,
        Element.traverse_classLiteral_eq_ok_iff.2 ⟨_, hIndex, rfl⟩⟩
  | enumConstant typeName constantName =>
      rw [encodeInto]
      refine (provides_text typeName).bind fun typeIndex => ?_
      refine (provides_text constantName).convert _ fun pool nameIndex hName hType => ?_
      refine ⟨_, ?_, .enumConstant typeIndex nameIndex, rfl,
        Element.traverse_enumConstant_eq_ok_iff.2 ⟨_, _, hType, hName, rfl⟩⟩
      simp only [List.append_assoc]
      rfl
  | annotationValue typeName pairs =>
      rw [encodeInto]
      refine (provides_text typeName).bind fun typeIndex => ?_
      refine (provides_encodePairsInto pairs _).mono fun pool bytes hBytes hType => ?_
      obtain ⟨values, rfl, hValues⟩ := hBytes
      have hCount : values.length = pairs.length := by
        rw [hValues.length_eq, Literal.pairConstants_eq_map, List.length_map]
      refine ⟨_, ?_, .annotationValue typeIndex values, rfl,
        Element.traverse_annotationValue_eq_ok_iff.2 ⟨_, _, hType, hValues, rfl⟩⟩
      rw [← hCount]
      simp only [List.append_assoc]
      rfl
  | array items =>
      rw [encodeInto]
      refine (provides_encodeItemsInto items _).mono fun pool bytes hBytes => ?_
      obtain ⟨values, rfl, hValues⟩ := hBytes
      have hCount : values.length = items.length := by
        rw [hValues.length_eq, Literal.itemConstants_eq_map, List.length_map]
      refine ⟨_, ?_, .array values, rfl,
        Element.traverse_array_eq_ok_iff.2 ⟨_, hValues, rfl⟩⟩
      rw [← hCount]
      simp only [List.append_assoc]
      rfl

theorem provides_encodePairsInto (pairs : List (String × Literal)) (out : List UInt8) :
    Provides (encodePairsInto pairs out) fun pool bytes =>
      ∃ values, bytes = out ++ Element.encodePairs values ∧
        List.Forall₂ (fun pair entry => pool.get pair.1 = .ok entry.1 ∧
          pool.resolve pair.2 = .ok entry.2) values (Literal.pairConstants pairs) := by
  cases pairs with
  | nil => exact Provides.pure out fun _ => ⟨[], (List.append_nil out).symm, .nil⟩
  | cons pair rest =>
      rw [encodePairsInto]
      refine (provides_text pair.1).bind fun nameIndex => ?_
      refine (provides_encodeInto pair.2 _).bind fun between => ?_
      refine (provides_encodePairsInto rest between).mono fun pool bytes hBytes hFirst hName => ?_
      obtain ⟨values, rfl, hValues⟩ := hBytes
      obtain ⟨_, rfl, value, rfl, hValue⟩ := hFirst
      refine ⟨(nameIndex, value) :: values, ?_, .cons ⟨hName, hValue⟩ hValues⟩
      simp only [List.append_assoc]
      rfl

theorem provides_encodeItemsInto (items : List Literal) (out : List UInt8) :
    Provides (encodeItemsInto items out) fun pool bytes =>
      ∃ values, bytes = out ++ Element.encodeItems values ∧
        List.Forall₂ (fun item entry => pool.resolve item = .ok entry)
          values (Literal.itemConstants items) := by
  cases items with
  | nil => exact Provides.pure out fun _ => ⟨[], (List.append_nil out).symm, .nil⟩
  | cons item rest =>
      rw [encodeItemsInto]
      refine (provides_encodeInto item out).bind fun between => ?_
      refine (provides_encodeItemsInto rest between).mono fun pool bytes hBytes hFirst => ?_
      obtain ⟨values, rfl, hValues⟩ := hBytes
      obtain ⟨_, rfl, value, rfl, hValue⟩ := hFirst
      refine ⟨value :: values, ?_, .cons hValue hValues⟩
      rw [List.append_assoc]
      rfl

end

theorem provides_encode (literal : Literal) :
    Provides (encode literal) fun pool bytes => literal.IsWrittenAs pool bytes := by
  refine (provides_encodeInto literal []).mono fun pool bytes hBytes => ?_
  obtain ⟨written, rfl, hWritten⟩ := hBytes
  exact hWritten

end PoolBuilder

end AnnotationDefaults
